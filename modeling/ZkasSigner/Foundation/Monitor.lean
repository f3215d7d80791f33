import ZkasSigner.Foundation.Runs
import Mathlib.Logic.Function.Basic

/-! Shared data behind one lock. Threads call in, wait, act on the data step by step while they
hold the lock, and give it back with an answer or by a panic. A panic poisons the lock, and the
next thread takes it all the same. -/
namespace Foundation.Monitor
open Runs

/-- How a thread gives the lock back. -/
inductive Exit (Answer : Type*) where
  | returned (answer : Answer)
  | panicked
  deriving DecidableEq

/-- The code behind the lock: the place a call begins at, what an action does at a place, and the
places where the lock is given back. The data may also change without the lock. -/
structure Code (Call Place Data Action Answer Outside : Type*) where
  enter : Call → Place
  act : Place → Data → Action → Option (Place × Data)
  exit : Place → Option (Exit Answer)
  outside : Data → Outside → Option Data

inductive Phase (Call Place : Type*) where
  | idle
  | waiting (c : Call)
  | inside (p : Place)
  deriving DecidableEq

structure State (Thread Call Place Data : Type*) where
  data : Data
  holder : Option Thread
  poisoned : Bool
  phase : Thread → Phase Call Place

inductive Label (Thread Call Action Answer Outside : Type*) where
  | called (t : Thread) (c : Call)
  | locked (t : Thread) (c : Call)
  | acted (t : Thread) (a : Action)
  | left (t : Thread) (x : Exit Answer)
  | outside (o : Outside)
  deriving DecidableEq

variable {Thread Call Place Data Action Answer Outside : Type*}
variable [DecidableEq Thread] [DecidableEq Call] [DecidableEq Answer]

namespace Code
variable (m : Code Call Place Data Action Answer Outside)

/-- Nobody holds the lock and nobody waits for it. -/
def start (d : Data) : State Thread Call Place Data := ⟨d,none,false,fun _ => .idle⟩

def step (s : State Thread Call Place Data) :
    Label Thread Call Action Answer Outside → Option (State Thread Call Place Data)
  | .called t c =>
    match s.phase t with
    | .idle => some { s with phase := Function.update s.phase t (.waiting c) }
    | _ => none
  | .locked t c =>
    match s.phase t, s.holder with
    | .waiting c', none =>
      if c' = c then
        some { s with holder := some t, phase := Function.update s.phase t (.inside (m.enter c)) }
      else none
    | _, _ => none
  | .acted t a =>
    match s.phase t with
    | .inside p => (m.act p s.data a).map fun q =>
        { s with data := q.2, phase := Function.update s.phase t (.inside q.1) }
    | _ => none
  | .left t x =>
    match s.phase t with
    | .inside p =>
      if m.exit p = some x then
        some { s with
          holder := none
          poisoned := s.poisoned || decide (x = .panicked)
          phase := Function.update s.phase t .idle }
      else none
    | _ => none
  | .outside o => (m.outside s.data o).map fun d => { s with data := d }

variable {m}

theorem step_called {s s' : State Thread Call Place Data} {t : Thread} {c : Call}
    (h : m.step s (.called t c) = some s') :
    s.phase t = .idle ∧ s' = { s with phase := Function.update s.phase t (.waiting c) } := by
  simp only [step] at h
  split at h
  · next hp => exact ⟨hp,(Option.some.inj h).symm⟩
  · cases h

theorem step_locked {s s' : State Thread Call Place Data} {t : Thread} {c : Call}
    (h : m.step s (.locked t c) = some s') :
    s.phase t = .waiting c ∧ s.holder = none ∧
      s' = { s with holder := some t, phase := Function.update s.phase t (.inside (m.enter c)) } := by
  simp only [step] at h
  split at h
  · next c' hp hh =>
    obtain ⟨rfl,h⟩ := Option.ite_none_right_eq_some.mp h
    exact ⟨hp,hh,(Option.some.inj h).symm⟩
  · cases h

theorem step_acted {s s' : State Thread Call Place Data} {t : Thread} {a : Action}
    (h : m.step s (.acted t a) = some s') :
    ∃ p p' d', s.phase t = .inside p ∧ m.act p s.data a = some (p',d') ∧
      s' = { s with data := d', phase := Function.update s.phase t (.inside p') } := by
  simp only [step] at h
  split at h
  · next p hp =>
    obtain ⟨q,hq,rfl⟩ := Option.map_eq_some_iff.mp h
    exact ⟨p,q.1,q.2,hp,hq,rfl⟩
  · cases h

theorem step_left {s s' : State Thread Call Place Data} {t : Thread} {x : Exit Answer}
    (h : m.step s (.left t x) = some s') :
    ∃ p, s.phase t = .inside p ∧ m.exit p = some x ∧ s' = { s with
      holder := none
      poisoned := s.poisoned || decide (x = .panicked)
      phase := Function.update s.phase t .idle } := by
  simp only [step] at h
  split at h
  · next p hp =>
    obtain ⟨hx,h⟩ := Option.ite_none_right_eq_some.mp h
    exact ⟨p,hp,hx,(Option.some.inj h).symm⟩
  · cases h

theorem step_outside {s s' : State Thread Call Place Data} {o : Outside}
    (h : m.step s (.outside o) = some s') : ∃ d, m.outside s.data o = some d ∧ s' = { s with data := d } := by
  obtain ⟨d,hd,rfl⟩ := Option.map_eq_some_iff.mp h
  exact ⟨d,hd,rfl⟩

/-- A lock that a panic has poisoned stays poisoned. -/
theorem step_poisoned {s s' : State Thread Call Place Data} {l : Label Thread Call Action Answer Outside}
    (hp : s.poisoned = true) (h : m.step s l = some s') : s'.poisoned = true := by
  cases l with
  | called t c =>
    obtain ⟨_,rfl⟩ := step_called h
    exact hp
  | locked t c =>
    obtain ⟨_,_,rfl⟩ := step_locked h
    exact hp
  | acted t a =>
    obtain ⟨_,_,_,_,_,rfl⟩ := step_acted h
    exact hp
  | left t x =>
    obtain ⟨_,_,_,rfl⟩ := step_left h
    exact Bool.or_eq_true_iff.mpr (.inl hp)
  | outside o =>
    obtain ⟨_,_,rfl⟩ := step_outside h
    exact hp

end Code

/-- Assertions about the data: one for a free lock and one for each place of its holder. -/
structure Sound (m : Code Call Place Data Action Answer Outside) (free : Data → Prop)
    (held : Place → Data → Prop) : Prop where
  enter : ∀ c d, free d → held (m.enter c) d
  act : ∀ p d a p' d', held p d → m.act p d a = some (p',d') → held p' d'
  exit : ∀ p d x, held p d → m.exit p = some x → free d
  outside_free : ∀ d o d', free d → m.outside d o = some d' → free d'
  outside_held : ∀ p d o d', held p d → m.outside d o = some d' → held p d'

/-- The thread behind the lock is its holder, and the assertions hold. -/
structure Kept (free : Data → Prop) (held : Place → Data → Prop) (s : State Thread Call Place Data) : Prop where
  alone : ∀ t p, s.phase t = .inside p → s.holder = some t
  behind : ∀ t, s.holder = some t → ∃ p, s.phase t = .inside p
  free : s.holder = none → free s.data
  held : ∀ t p, s.phase t = .inside p → held p s.data

variable {m : Code Call Place Data Action Answer Outside} {free : Data → Prop} {held : Place → Data → Prop}

omit [DecidableEq Thread] [DecidableEq Call] [DecidableEq Answer] in
theorem Kept.same {s : State Thread Call Place Data} (h : Kept free held s) {t u : Thread} {p q : Place}
    (ht : s.phase t = .inside p) (hu : s.phase u = .inside q) : t = u :=
  Option.some.inj ((h.alone t p ht).symm.trans (h.alone u q hu))

omit [DecidableEq Thread] [DecidableEq Call] [DecidableEq Answer] in
theorem kept_start {d : Data} (h : free d) :
    Kept free held (Code.start d : State Thread Call Place Data) :=
  ⟨nofun,nofun,fun _ => h,nofun⟩

omit [DecidableEq Call] [DecidableEq Answer] in
theorem inside_of_called {s : State Thread Call Place Data} {t u : Thread} {c : Call} {p : Place}
    (hidle : s.phase t = .idle) (hp : s.phase u = .inside p) :
    Function.update s.phase t (.waiting c) u = .inside p := by
  have hne : u ≠ t := by
    rintro rfl
    rw [hidle] at hp
    cases hp
  rw [Function.update_of_ne hne,hp]

omit [DecidableEq Call] [DecidableEq Answer] in
/-- A thread that is behind the lock after another thread's move was there before it. -/
theorem inside_of_update {s : State Thread Call Place Data} {t u : Thread} {ph : Phase Call Place} {p : Place}
    (hne : ∀ q, ph ≠ .inside q) (h : Function.update s.phase t ph u = .inside p) : u ≠ t ∧ s.phase u = .inside p := by
  by_cases hu : u = t
  · subst hu
    rw [Function.update_self] at h
    exact absurd h (hne p)
  · rw [Function.update_of_ne hu] at h
    exact ⟨hu,h⟩

omit [DecidableEq Call] [DecidableEq Answer] in
theorem only_inside {s : State Thread Call Place Data} {t : Thread} {p : Place}
    (h : ∀ u q, u ≠ t → s.phase u ≠ .inside q) (u : Thread) (q : Place)
    (hu : Function.update s.phase t (.inside p) u = .inside q) : u = t ∧ q = p := by
  by_cases hut : u = t
  · subst hut
    rw [Function.update_self] at hu
    exact ⟨rfl,(Phase.inside.inj hu).symm⟩
  · rw [Function.update_of_ne hut] at hu
    exact absurd hu (h u q hut)

theorem Sound.kept_step (hm : Sound m free held) (s : State Thread Call Place Data)
    (l : Label Thread Call Action Answer Outside) (s' : State Thread Call Place Data)
    (h : Kept free held s) (hstep : m.step s l = some s') : Kept free held s' := by
  cases l with
  | called t c =>
    obtain ⟨hidle,rfl⟩ := Code.step_called hstep
    refine ⟨fun u p hu => ?_,fun u hu => ?_,h.free,fun u p hu => ?_⟩
    · exact h.alone u p (inside_of_update nofun hu).2
    · obtain ⟨p,hp⟩ := h.behind u hu
      exact ⟨p,inside_of_called hidle hp⟩
    · exact h.held u p (inside_of_update nofun hu).2
  | locked t c =>
    obtain ⟨_,hfree,rfl⟩ := Code.step_locked hstep
    have hu := only_inside (t := t) (p := m.enter c) fun u q hne hq => by
      rw [h.alone u q hq] at hfree
      cases hfree
    refine ⟨fun u p hp => ?_,fun u ht => ?_,nofun,fun u p hp => ?_⟩
    · rw [(hu u p hp).1]
    · cases ht
      exact ⟨_,Function.update_self ..⟩
    · rw [(hu u p hp).2]
      exact hm.enter c _ (h.free hfree)
  | acted t a =>
    obtain ⟨p,p',d',hp,ha,rfl⟩ := Code.step_acted hstep
    have ht := h.alone t p hp
    have hu := only_inside (t := t) (p := p') fun u q hne hq => hne (h.same hq hp)
    refine ⟨fun u q hq => ?_,fun u hu => ?_,fun hnone => ?_,fun u q hq => ?_⟩
    · rw [(hu u q hq).1]
      exact ht
    · cases ht.symm.trans hu
      exact ⟨p',Function.update_self ..⟩
    · exact absurd (ht.symm.trans hnone) nofun
    · rw [(hu u q hq).2]
      exact hm.act p _ a p' d' (h.held t p hp) ha
  | left t x =>
    obtain ⟨p,hp,hx,rfl⟩ := Code.step_left hstep
    have hu : ∀ u q, Function.update s.phase t .idle u ≠ .inside q := fun u q hu =>
      (inside_of_update nofun hu).1 (h.same (inside_of_update nofun hu).2 hp)
    refine ⟨fun u q hq => absurd hq (hu u q),nofun,fun _ => ?_,fun u q hq => absurd hq (hu u q)⟩
    exact hm.exit p _ x (h.held t p hp) hx
  | outside o =>
    obtain ⟨d,hd,rfl⟩ := Code.step_outside hstep
    refine ⟨h.alone,h.behind,fun hnone => ?_,fun t p hp => ?_⟩
    · exact hm.outside_free _ o d (h.free hnone) hd
    · exact hm.outside_held p _ o d (h.held t p hp) hd

theorem Sound.kept_run (hm : Sound m free held) {labels : List (Label Thread Call Action Answer Outside)}
    {s t : State Thread Call Place Data} (hs : Kept free held s) (h : run m.step labels s = some t) :
    Kept free held t :=
  run_invariant hm.kept_step hs h

/-- A thread is at a place of `Q`, with the lock, or the data has reached `R`: the allowed steps
keep it so. -/
structure Until (m : Code Call Place Data Action Answer Outside) (held : Place → Data → Prop)
    (allowed : Label Thread Call Action Answer Outside → Prop) (u : Thread) (Q : Place → Prop) (R : Data → Prop) :
    Prop where
  stays : ∀ p, Q p → m.exit p = none ∨ ∀ x, ¬ allowed (.left u x)
  act : ∀ p d a p' d', Q p → allowed (.acted u a) → m.act p d a = some (p',d') → Q p' ∨ R d'
  keeps : ∀ t p d a p' d', R d → held p d → allowed (.acted t a) → m.act p d a = some (p',d') → R d'
  outside : ∀ d o d', R d → m.outside d o = some d' → R d'

def Reached (u : Thread) (Q : Place → Prop) (R : Data → Prop) (s : State Thread Call Place Data) : Prop :=
  (∃ p, s.phase u = .inside p ∧ Q p) ∨ R s.data

variable {allowed : Label Thread Call Action Answer Outside → Prop} {u : Thread} {Q : Place → Prop} {R : Data → Prop}

theorem Until.step (hu : Until m held allowed u Q R) {s s' : State Thread Call Place Data}
    {l : Label Thread Call Action Answer Outside} (hl : allowed l) (hk : Kept free held s)
    (h : Reached u Q R s) (hstep : m.step s l = some s') : Reached u Q R s' := by
  cases l with
  | called t c =>
    obtain ⟨hidle,rfl⟩ := Code.step_called hstep
    exact h.imp_left fun ⟨p,hp,hq⟩ => ⟨p,inside_of_called hidle hp,hq⟩
  | locked t c =>
    obtain ⟨_,hfree,rfl⟩ := Code.step_locked hstep
    refine h.imp_left fun ⟨p,hp,hq⟩ => ?_
    rw [hk.alone u p hp] at hfree
    cases hfree
  | acted t a =>
    obtain ⟨p,p',d',hp,ha,rfl⟩ := Code.step_acted hstep
    rcases h with ⟨q,hq,hQ⟩ | hR
    · have htu : t = u := hk.same hp hq
      subst htu
      rw [hp] at hq
      cases hq
      rcases hu.act p _ a p' d' hQ hl ha with hQ' | hR'
      · exact .inl ⟨p',Function.update_self ..,hQ'⟩
      · exact .inr hR'
    · exact .inr (hu.keeps t p _ a p' d' hR (hk.held t p hp) hl ha)
  | left t x =>
    obtain ⟨p,hp,hx,rfl⟩ := Code.step_left hstep
    refine h.imp_left fun ⟨q,hq,hQ⟩ => ?_
    have htu : t = u := hk.same hp hq
    subst htu
    rw [hp] at hq
    cases hq
    rcases hu.stays p hQ with hstay | hstay
    · rw [hstay] at hx
      cases hx
    · exact absurd hl (hstay x)
  | outside o =>
    obtain ⟨d,hd,rfl⟩ := Code.step_outside hstep
    exact h.imp_right fun hR => hu.outside _ o d hR hd

/-- What a thread holds it holds until a step that is not allowed. -/
theorem Until.run (hm : Sound m free held) (hu : Until m held allowed u Q R)
    {labels : List (Label Thread Call Action Answer Outside)} (hl : ∀ l ∈ labels, allowed l)
    {s t : State Thread Call Place Data} (hs : Kept free held s) (hr : Reached u Q R s)
    (h : Runs.run m.step labels s = some t) : Reached u Q R t := by
  have hboth := run_preserves (P := fun s => Kept free held s ∧ Reached u Q R s) allowed
    (fun s l t hl hs hstep => ⟨hm.kept_step s l t hs.1 hstep,hu.step hl hs.1 hs.2 hstep⟩) hl ⟨hs,hr⟩ h
  exact hboth.2

end Foundation.Monitor
