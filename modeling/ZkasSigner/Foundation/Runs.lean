import Mathlib.Data.List.Induction

/-! Runs of a machine whose steps are labelled and may be refused. A run is the list of its
labels, and what holds of every state it passes is shown step by step. -/
namespace Foundation.Runs
variable {State Label : Type*} (step : State → Label → Option State)

/-- The state a list of steps leads to, if none of them is refused. -/
def run (labels : List Label) (s : State) : Option State := labels.foldlM step s

variable {step}

@[simp] theorem run_nil (s : State) : run step [] s = some s := rfl

@[simp] theorem run_cons (l : Label) (labels : List Label) (s : State) :
    run step (l::labels) s = (step s l).bind (run step labels) := by
  simp only [run,List.foldlM_cons]
  rfl

theorem run_append_eq_some {front back : List Label} {s t : State} :
    run step (front ++ back) s = some t ↔ ∃ mid, run step front s = some mid ∧ run step back mid = some t := by
  induction front generalizing s with
  | nil => simp
  | cons l front ih =>
    rw [List.cons_append,run_cons,run_cons]
    cases step s l with
    | none => simp
    | some next => exact ih

theorem run_concat_eq_some {labels : List Label} {l : Label} {s t : State} :
    run step (labels ++ [l]) s = some t ↔ ∃ mid, run step labels s = some mid ∧ step mid l = some t := by
  rw [run_append_eq_some]
  refine exists_congr fun mid => and_congr_right fun _ => ?_
  rw [run_cons]
  cases step mid l <;> exact Iff.rfl

/-- A run through one step of it. -/
theorem run_through_eq_some {front back : List Label} {l : Label} {s t : State} :
    run step (front ++ l::back) s = some t ↔
      ∃ before after, run step front s = some before ∧ step before l = some after ∧ run step back after = some t := by
  rw [run_append_eq_some]
  refine exists_congr fun before => ?_
  rw [run_cons,Option.bind_eq_some_iff,exists_and_left]

/-- What the allowed steps keep, a run of allowed steps keeps. -/
theorem run_preserves {P : State → Prop} (allowed : Label → Prop)
    (hstep : ∀ s l t, allowed l → P s → step s l = some t → P t) {labels : List Label}
    (hlabels : ∀ l ∈ labels, allowed l) {s t : State} (hs : P s) (h : run step labels s = some t) : P t := by
  induction labels generalizing s with
  | nil =>
    rw [← Option.some.inj h]
    exact hs
  | cons l labels ih =>
    rw [run_cons] at h
    obtain ⟨next,hnext,h⟩ := Option.bind_eq_some_iff.mp h
    exact ih (fun l' hl' => hlabels l' (List.mem_cons_of_mem l hl'))
      (hstep s l next (hlabels l List.mem_cons_self) hs hnext) h

/-- What every step keeps holds throughout every run. -/
theorem run_invariant {P : State → Prop} (hstep : ∀ s l t, P s → step s l = some t → P t)
    {labels : List Label} {s t : State} (hs : P s) (h : run step labels s = some t) : P t :=
  run_preserves (fun _ => True) (fun s l t _ => hstep s l t) (fun _ _ => trivial) hs h

/-- A flag that some steps put up, some take down and the others leave: it is up after a run from a
state where it was down exactly when a step put it up and none took it down since. -/
theorem flag_iff_since {P : State → Prop} {sets clears : Label → Prop}
    (hsets : ∀ s l t, sets l → step s l = some t → P t)
    (hclears : ∀ s l t, clears l → step s l = some t → ¬ P t)
    (hkeeps : ∀ s l t, ¬ sets l → ¬ clears l → step s l = some t → (P t ↔ P s))
    {labels : List Label} {s t : State} (hs : ¬ P s) (h : run step labels s = some t) :
    P t ↔ ∃ front l back, labels = front ++ l::back ∧ sets l ∧ ∀ m ∈ back, ¬ clears m := by
  induction labels using List.reverseRecOn generalizing t with
  | nil =>
    rw [← Option.some.inj h]
    exact iff_of_false hs fun ⟨front,l,back,he,_⟩ => List.append_ne_nil_of_right_ne_nil front (List.cons_ne_nil l back) he.symm
  | append_singleton labels last ih =>
    obtain ⟨mid,hmid,hlast⟩ := run_concat_eq_some.mp h
    constructor
    · intro hflag
      by_cases hset : sets last
      · exact ⟨labels,last,[],rfl,hset,nofun⟩
      · have hclear : ¬ clears last := fun hclear => hclears mid last t hclear hlast hflag
        obtain ⟨front,l,back,rfl,hl,hback⟩ := (ih hmid).mp ((hkeeps mid last t hset hclear hlast).mp hflag)
        refine ⟨front,l,back ++ [last],by simp,hl,fun m hm => ?_⟩
        rcases List.mem_append.mp hm with hm | hm
        · exact hback m hm
        · rwa [List.mem_singleton.mp hm]
    · rintro ⟨front,l,back,he,hl,hback⟩
      rcases List.eq_nil_or_concat back with rfl | ⟨back,m,rfl⟩
      · obtain ⟨rfl,hlabel⟩ := List.append_inj' he rfl
        cases hlabel
        exact hsets mid last t hl hlast
      · rw [List.concat_eq_append] at he hback
        rw [← List.cons_append,← List.append_assoc] at he
        obtain ⟨rfl,hlabel⟩ := List.append_inj' he rfl
        cases hlabel
        have hclear : ¬ clears last := hback last (by simp)
        have hflag : P mid := (ih hmid).mpr ⟨front,l,back,rfl,hl,fun m hm => hback m (by simp [hm])⟩
        by_cases hset : sets last
        · exact hsets mid last t hset hlast
        · exact (hkeeps mid last t hset hclear hlast).mpr hflag

section
variable {Entry : Type*} {f : Label → Option Entry} {l : Label}

/-- What a run leaves on record, with one step more. -/
theorem filterMap_concat_none (labels : List Label) (h : f l = none) :
    (labels ++ [l]).filterMap f = labels.filterMap f := by
  rw [List.filterMap_append,List.filterMap_cons_none h,List.filterMap_nil,List.append_nil]

theorem filterMap_concat_some (labels : List Label) {entry : Entry} (h : f l = some entry) :
    (labels ++ [l]).filterMap f = labels.filterMap f ++ [entry] := by
  rw [List.filterMap_append,List.filterMap_cons_some h,List.filterMap_nil]

end

end Foundation.Runs
