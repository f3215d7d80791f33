import Mathlib.Data.List.Basic

/-! Readers with a position in their input and reasons to fail. A reader is exact for a written form
when what it takes off the input is precisely what the form writes for the value it makes. -/
namespace Foundation.Wire
variable {σ κ ε : Type} {α β : Type}

/-- A reader moves a cursor, of which `view` shows the input that is left. -/
abbrev Reader (κ ε α : Type) := StateT κ (Except ε) α

def Exact (view : κ → List σ) (read : Reader κ ε α) (Writes : α → List σ → Prop) : Prop :=
  ∀ r a tail, (∃ r', read.run r = .ok (a,r') ∧ view r' = tail) ↔ ∃ w, Writes a w ∧ view r = w ++ tail

variable {view : κ → List σ} {read : Reader κ ε α} {Writes : α → List σ → Prop}

theorem run_bind_eq_ok {next : α → Reader κ ε β} {r r' : κ} {b : β} :
    (read >>= next).run r = .ok (b,r') ↔ ∃ a mid, read.run r = .ok (a,mid) ∧ (next a).run mid = .ok (b,r') := by
  rw [StateT.run_bind]
  cases read.run r with
  | error e => simp [bind,Except.bind]
  | ok p =>
    obtain ⟨a,mid⟩ := p
    simp [bind,Except.bind]

/-- A step that takes nothing off the input. -/
theorem exact_lift (x : Except ε α) : Exact view (StateT.lift x : Reader κ ε α) fun a w => x = .ok a ∧ w = [] := by
  intro r a tail
  constructor
  · rintro ⟨r',h,rfl⟩
    cases x with
    | error e => cases h
    | ok a =>
      cases h
      exact ⟨[],⟨rfl,rfl⟩,rfl⟩
  · rintro ⟨w,⟨rfl,rfl⟩,h⟩
    exact ⟨r,rfl,h⟩

theorem Exact.congr {Same : α → List σ → Prop} (hread : Exact view read Writes)
    (hsame : ∀ a w, Same a w ↔ Writes a w) : Exact view read Same := by
  intro r a tail
  rw [hread r a tail]
  exact exists_congr fun w => and_congr_left fun _ => (hsame a w).symm

theorem exact_pure (a : α) : Exact view (pure a : Reader κ ε α) fun b w => b = a ∧ w = [] :=
  (exact_lift (Except.ok a) : Exact view (pure a : Reader κ ε α) _).congr fun b w =>
    and_congr_left fun _ => by rw [Except.ok.injEq,eq_comm]

/-- One form behind another. -/
theorem Exact.bind {next : α → Reader κ ε β} {Rest : α → β → List σ → Prop} (hread : Exact view read Writes)
    (hnext : ∀ a, Exact view (next a) (Rest a)) :
    Exact view (read >>= next) fun b w => ∃ a u v, Writes a u ∧ Rest a b v ∧ w = u ++ v := by
  intro r b tail
  constructor
  · rintro ⟨r',h,rfl⟩
    obtain ⟨a,mid,hmid,hend⟩ := run_bind_eq_ok.mp h
    obtain ⟨u,hu,hview⟩ := (hread r a (view mid)).mp ⟨mid,hmid,rfl⟩
    obtain ⟨v,hv,hrest⟩ := (hnext a mid b (view r')).mp ⟨r',hend,rfl⟩
    exact ⟨u ++ v,⟨a,u,v,hu,hv,rfl⟩,by rw [hview,hrest,List.append_assoc]⟩
  · rintro ⟨w,⟨a,u,v,hu,hv,rfl⟩,hview⟩
    rw [List.append_assoc] at hview
    obtain ⟨mid,hmid,hrest⟩ := (hread r a (v ++ tail)).mpr ⟨u,hu,hview⟩
    obtain ⟨r',hend,htail⟩ := (hnext a mid b tail).mpr ⟨v,hv,hrest⟩
    exact ⟨r',run_bind_eq_ok.mpr ⟨a,mid,hmid,hend⟩,htail⟩

/-- A reader behind a check. -/
theorem Exact.guard {p : Prop} [Decidable p] (hread : Exact view read Writes) (e : ε) :
    Exact view (if p then read else throw e) fun a w => p ∧ Writes a w := by
  by_cases hp : p
  · rw [if_pos hp]
    exact hread.congr fun _ _ => and_iff_right hp
  · rw [if_neg hp]
    intro r a tail
    refine iff_of_false ?_ ?_
    · rintro ⟨r',h,_⟩
      cases h
    · rintro ⟨w,⟨h,_⟩,_⟩
      exact hp h

/-- All of the input is one value, or what is left is refused. -/
theorem Exact.whole (hread : Exact view read Writes) {r : κ} {a : α} :
    (∃ r', read.run r = .ok (a,r') ∧ view r' = []) ↔ Writes a (view r) := by
  rw [hread r a []]
  constructor
  · rintro ⟨w,hw,h⟩
    rwa [h,List.append_nil]
  · intro h
    exact ⟨view r,h,(List.append_nil _).symm⟩

/-- What a form writes, cut short, makes the reader fail for this reason. -/
def FailsShort (view : κ → List σ) (read : Reader κ ε α) (Writes : α → List σ → Prop) (e : ε) : Prop :=
  ∀ r a w missing, Writes a w → w = view r ++ missing → missing ≠ [] → read.run r = .error e

theorem failsShort_of_nil {e : ε} (h : ∀ a w, Writes a w → w = []) : FailsShort view read Writes e := by
  intro r a w missing hw hcut hmissing
  rw [h a w hw] at hcut
  exact absurd (List.append_eq_nil_iff.mp hcut.symm).2 hmissing

theorem FailsShort.congr {Same : α → List σ → Prop} {e : ε} (hread : FailsShort view read Writes e)
    (hsame : ∀ a w, Same a w → Writes a w) : FailsShort view read Same e :=
  fun r a w missing hw => hread r a w missing (hsame a w hw)

theorem FailsShort.guard {p : Prop} [Decidable p] {e : ε} (hread : FailsShort view read Writes e) (other : ε) :
    FailsShort view (if p then read else throw other) (fun a w => p ∧ Writes a w) e := by
  rintro r a w missing ⟨hp,hw⟩
  rw [if_pos hp]
  exact hread r a w missing hw

/-- The cut is in the first form, or the first form is whole and the cut is in the second. -/
theorem FailsShort.bind {next : α → Reader κ ε β} {Rest : α → β → List σ → Prop} {e : ε}
    (hexact : Exact view read Writes) (hread : FailsShort view read Writes e)
    (hnext : ∀ a, FailsShort view (next a) (Rest a) e) :
    FailsShort view (read >>= next) (fun b w => ∃ a u v, Writes a u ∧ Rest a b v ∧ w = u ++ v) e := by
  rintro r b w missing ⟨a,u,v,hu,hv,rfl⟩ hcut hmissing
  rw [StateT.run_bind]
  rcases List.append_eq_append_iff.mp hcut with ⟨front,hview,hback⟩ | ⟨behind,hfront,hback⟩
  · obtain ⟨mid,hmid,hrest⟩ := (hexact r a front).mpr ⟨u,hu,hview⟩
    rw [hmid]
    rw [← hrest] at hback
    exact hnext a mid b v missing hv hback hmissing
  · by_cases hnil : behind = []
    · rw [hnil,List.append_nil] at hfront
      obtain ⟨mid,hmid,hrest⟩ := (hexact r a []).mpr ⟨u,hu,by rw [hfront,List.append_nil]⟩
      rw [hmid]
      rw [hnil,List.nil_append] at hback
      exact hnext a mid b v missing hv (by rw [hrest,List.nil_append,hback]) hmissing
    · rw [hread r a u behind hu hfront hnil]
      rfl

end Foundation.Wire
