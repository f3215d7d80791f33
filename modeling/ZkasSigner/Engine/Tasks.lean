import ZkasSigner.Engine.Threads

/-! The runtimes that a start has spawned its serve task on, from that spawn to their end. Whoever calls and
whatever panics, such a runtime has one owner until it is torn down. -/
namespace ZkasSigner.Engine
open Foundation Foundation.Runs Foundation.Monitor

def Action.spawns : Action → Option ℕ
  | .spawned task => some task
  | _ => none

/-- A stop shuts a runtime down, and a panic drops the one in scope. -/
def Action.tearsDown : Action → Option ℕ
  | .shut task => some task
  | .dropped task => some task
  | _ => none

/-- What a step behind the lock does with the runtimes. -/
inductive Place.Hands (p : Place) (e : Process) : Action → Place → Process → Prop where
  | spawned {port : Port} {cfg : Config} (place : p = .spawning port cfg) :
      Hands p e (.spawned e.launched.length) (.storing port e.launched.length)
        { e with launched := e.launched ++ [cfg], running := insert e.launched.length e.running }
  | stored {port : Port} {task : ℕ} (place : p = .storing port task) :
      Hands p e .stored (.returning (some port)) { e with engine := some ⟨port,task⟩ }
  | took {r : Running} (place : p = .taking) (engine : e.engine = some r) :
      Hands p e (.took r.task) (.signalling r.task) { e with engine := none }
  | tornDown {a : Action} {p' : Place} {task : ℕ} (spawns : a.spawns = none) (action : a.tearsDown = some task)
      (runtime : p.runtime = some task) (done : p'.runtime = none) :
      Hands p e a p' { e with running := e.running.erase task }
  | quiet {a : Action} {p' : Place} (spawns : a.spawns = none) (tearsDown : a.tearsDown = none)
      (runtime : p'.runtime = p.runtime) : Hands p e a p' e

theorem Place.act_hands {p p' : Place} {e e' : Process} {a : Action} (h : p.act e a = some (p',e')) :
    p.Hands e a p' e' := by
  revert h
  fun_cases act p e a <;> intro h <;> cases h
  case case10 => exact .spawned rfl
  case case12 => exact .stored rfl
  case case13 r hr => exact .took rfl hr
  case case19 => exact .tornDown rfl rfl rfl rfl
  case case22 => exact .tornDown rfl rfl rfl rfl
  all_goals exact .quiet rfl rfl rfl

section
variable {Thread : Type*}

def spawns : Step Thread → Option ℕ
  | .acted _ a => a.spawns
  | _ => none

def tearsDown : Step Thread → Option ℕ
  | .acted _ a => a.tearsDown
  | _ => none

def ends : Step Thread → Option ℕ
  | .outside (.serveEnded task) => some task
  | _ => none

def Stored (e : Process) (task : ℕ) : Prop := ∃ r, e.engine = some r ∧ r.task = task

/-- The stored handle or the thread behind the lock has the runtime of this task. -/
def Owned (s : Threads Thread) (task : ℕ) : Prop :=
  Stored s.data task ∨ ∃ t p, s.phase t = .inside p ∧ p.runtime = some task

/-- The books of a run: every runtime is numbered in the order of the spawns, is torn down once at
most, and is owned until then; its task runs until then, unless it ends by itself. -/
structure Accounted (labels : List (Step Thread)) (s : Threads Thread) : Prop where
  spawned : labels.filterMap spawns = List.range s.data.launched.length
  once : (labels.filterMap tearsDown).Nodup
  tornDown : ∀ task ∈ labels.filterMap tearsDown, task < s.data.launched.length
  ended : ∀ task ∈ labels.filterMap ends, task < s.data.launched.length
  owned : ∀ task, Owned s task ↔ task < s.data.launched.length ∧ task ∉ labels.filterMap tearsDown
  running : ∀ task, task ∈ s.data.running ↔
    task < s.data.launched.length ∧ task ∉ labels.filterMap tearsDown ∧ task ∉ labels.filterMap ends

theorem not_stored {e : Process} (h : e.engine = none) (task : ℕ) : ¬ Stored e task := by
  rintro ⟨r,hr,_⟩
  rw [h] at hr
  cases hr

theorem stored_of_engine {e : Process} {r : Running} (h : e.engine = some r) (task : ℕ) : Stored e task ↔ r.task = task := by
  constructor
  · rintro ⟨r',hr',rfl⟩
    rw [Option.some.inj (h.symm.trans hr')]
  · intro htask
    exact ⟨r,h,htask⟩

theorem owned_inside {s : Threads Thread} (hk : Kept Settled Held s) {t : Thread} {p : Place}
    (hp : s.phase t = .inside p) (task : ℕ) : Owned s task ↔ Stored s.data task ∨ p.runtime = some task := by
  refine or_congr_right ⟨?_,fun h => ⟨t,p,hp,h⟩⟩
  rintro ⟨u,q,hq,h⟩
  obtain rfl := hk.same hp hq
  rw [hp] at hq
  rwa [Phase.inside.inj hq]

theorem owned_free {s : Threads Thread} (hk : Kept Settled Held s) (hfree : s.holder = none) (task : ℕ) :
    Owned s task ↔ Stored s.data task := by
  refine or_iff_left ?_
  rintro ⟨t,p,hp,_⟩
  rw [hk.alone t p hp] at hfree
  cases hfree

/-- Nobody has two runtimes. -/
theorem owned_unique {s : Threads Thread} (hk : Kept Settled Held s) {k k' : ℕ} (h : Owned s k) (h' : Owned s k') :
    k = k' := by
  have hstored : ∀ {a b}, Stored s.data a → Stored s.data b → a = b := by
    rintro a b ⟨r,hr,rfl⟩ ⟨r',hr',rfl⟩
    rw [Option.some.inj (hr.symm.trans hr')]
  cases hholder : s.holder with
  | none => exact hstored ((owned_free hk hholder k).mp h) ((owned_free hk hholder k').mp h')
  | some t =>
    obtain ⟨p,hp⟩ := hk.behind t hholder
    have hheld := hk.held t p hp
    -- with a runtime in scope no engine is stored
    have hnot : ∀ {a b}, Stored s.data a → p.runtime ≠ some b := fun ha hb =>
      not_stored (hheld.vacant (Place.vacant_of_runtime hb)) _ ha
    rcases (owned_inside hk hp k).mp h with h | h
    · rcases (owned_inside hk hp k').mp h' with h' | h'
      · exact hstored h h'
      · exact absurd h' (hnot h)
    · rcases (owned_inside hk hp k').mp h' with h' | h'
      · exact absurd h (hnot h')
      · exact Option.some.inj (h.symm.trans h')

theorem accounted_start : Accounted [] (idle : Threads Thread) where
  spawned := rfl
  once := List.nodup_nil
  tornDown _ h := absurd h List.not_mem_nil
  ended _ h := absurd h List.not_mem_nil
  owned task := by
    refine iff_of_false ?_ fun h => absurd h.1 (Nat.not_lt_zero _)
    rintro (⟨r,hr,_⟩ | ⟨t,p,hp,_⟩)
    · cases hr
    · cases hp
  running task := iff_of_false (Finset.notMem_empty _) fun h => absurd h.1 (Nat.not_lt_zero _)

/-- A step that spawns nothing, tears nothing down and ends nothing is not in the books. -/
theorem Accounted.concat {labels : List (Step Thread)} {s s' : Threads Thread} (h : Accounted labels s)
    {l : Step Thread} (hspawns : spawns l = none) (htears : tearsDown l = none) (hends : ends l = none)
    (hlaunched : s'.data.launched = s.data.launched) (hrunning : s'.data.running = s.data.running)
    (howned : ∀ task, Owned s' task ↔ Owned s task) : Accounted (labels ++ [l]) s' := by
  have hs := filterMap_concat_none labels hspawns
  have ht := filterMap_concat_none labels htears
  have he := filterMap_concat_none labels hends
  refine ⟨?_,?_,?_,?_,fun task => ?_,fun task => ?_⟩
  · rw [hs,hlaunched]
    exact h.spawned
  · rw [ht]
    exact h.once
  · rw [ht,hlaunched]
    exact h.tornDown
  · rw [he,hlaunched]
    exact h.ended
  · rw [ht,hlaunched,howned]
    exact h.owned task
  · rw [ht,he,hlaunched,hrunning]
    exact h.running task

variable [DecidableEq Thread]

theorem Accounted.acted {labels : List (Step Thread)} {s s' : Threads Thread} (hk : Kept Settled Held s)
    (h : Accounted labels s) {t : Thread} {a : Action} (hstep : code.step s (.acted t a) = some s') :
    Accounted (labels ++ [.acted t a]) s' := by
  have hk' := sound.kept_step _ _ _ hk hstep
  obtain ⟨p,p',e',hp,ha,rfl⟩ := Code.step_acted hstep
  have hheld := hk.held t p hp
  have hown := owned_inside hk hp
  have hown' := owned_inside hk' (Function.update_self t (Phase.inside p') s.phase)
  cases Place.act_hands ha with
  | spawned place =>
    subst place
    have hnone := hheld.vacant rfl
    have hspawns := filterMap_concat_some labels
      (show spawns (.acted t (.spawned s.data.launched.length)) = some s.data.launched.length from rfl)
    have htears := filterMap_concat_none labels
      (show tearsDown (.acted t (.spawned s.data.launched.length)) = none from rfl)
    have hends := filterMap_concat_none labels (show ends (.acted t (.spawned s.data.launched.length)) = none from rfl)
    -- whatever was spawned before is torn down: nobody owned it
    have hgone : ∀ task, task < s.data.launched.length → task ∈ labels.filterMap tearsDown := fun task hlt => by
      by_contra hnot
      rcases (hown task).mp ((h.owned task).mpr ⟨hlt,hnot⟩) with hstored | hruntime
      · exact not_stored hnone task hstored
      · cases hruntime
    have hnew : s.data.launched.length ∉ labels.filterMap tearsDown := fun hmem =>
      absurd (h.tornDown _ hmem) (Nat.lt_irrefl _)
    have hnew' : s.data.launched.length ∉ labels.filterMap ends := fun hmem =>
      absurd (h.ended _ hmem) (Nat.lt_irrefl _)
    refine ⟨?_,?_,fun task hmem => ?_,fun task hmem => ?_,fun task => ?_,fun task => ?_⟩
    · rw [hspawns,h.spawned,List.length_append,List.length_singleton,List.range_succ]
    · rw [htears]
      exact h.once
    · rw [htears] at hmem
      rw [List.length_append]
      exact Nat.lt_add_right _ (h.tornDown task hmem)
    · rw [hends] at hmem
      rw [List.length_append]
      exact Nat.lt_add_right _ (h.ended task hmem)
    · rw [hown' task,htears,List.length_append,List.length_singleton,Nat.lt_succ_iff_lt_or_eq]
      constructor
      · rintro (hstored | hruntime)
        · exact absurd hstored (not_stored hnone task)
        · obtain rfl := Option.some.inj hruntime
          exact ⟨.inr rfl,hnew⟩
      · rintro ⟨hlt | rfl,hnot⟩
        · exact absurd (hgone task hlt) hnot
        · exact .inr rfl
    · rw [htears,hends,List.length_append,List.length_singleton,Nat.lt_succ_iff_lt_or_eq,Finset.mem_insert,h.running task]
      constructor
      · rintro (rfl | ⟨hlt,hnot⟩)
        · exact ⟨.inr rfl,hnew,hnew'⟩
        · exact ⟨.inl hlt,hnot⟩
      · rintro ⟨hlt | rfl,hnot⟩
        · exact .inr ⟨hlt,hnot⟩
        · exact .inl rfl
  | @stored port stored place =>
    subst place
    refine h.concat rfl rfl rfl rfl rfl fun task => ?_
    have hbefore : Stored s.data task ↔ False := iff_false_intro (not_stored (hheld.vacant rfl) task)
    have hafter := stored_of_engine (e := { s.data with engine := some ⟨port,stored⟩ }) rfl task
    rw [hown' task,hown task,hbefore,hafter]
    simp [Place.runtime]
  | @took r place engine =>
    subst place
    refine h.concat rfl rfl rfl rfl rfl fun task => ?_
    have hafter : Stored { s.data with engine := none } task ↔ False := iff_false_intro (not_stored rfl task)
    rw [hown' task,hown task,hafter,stored_of_engine engine]
    simp [Place.runtime]
  | @tornDown _ _ gone hspawns haction runtime done =>
    have hnone := hheld.vacant (Place.vacant_of_runtime runtime)
    obtain ⟨hlt,hnot⟩ := (h.owned gone).mp ((hown gone).mpr (.inr runtime))
    have hs := filterMap_concat_none labels (show spawns (.acted t a) = none from hspawns)
    have ht := filterMap_concat_some labels (show tearsDown (.acted t a) = some gone from haction)
    have he := filterMap_concat_none labels (show ends (.acted t a) = none from rfl)
    refine ⟨hs.trans h.spawned,?_,fun task hmem => ?_,fun task hmem => ?_,fun task => ?_,fun task => ?_⟩
    · rw [ht]
      refine h.once.append (List.nodup_singleton gone) fun k hk hk' => ?_
      rw [List.mem_singleton] at hk'
      exact hnot (hk' ▸ hk)
    · rw [ht,List.mem_append,List.mem_singleton] at hmem
      rcases hmem with hmem | rfl
      · exact h.tornDown task hmem
      · exact hlt
    · rw [he] at hmem
      exact h.ended task hmem
    · -- whoever has this runtime has no other one
      rw [hown' task,done,ht]
      refine iff_of_false ?_ fun hmem => ?_
      · rintro (hstored | hruntime)
        · exact not_stored (e := { s.data with running := s.data.running.erase gone }) hnone task hstored
        · cases hruntime
      · obtain ⟨hlt',hnot'⟩ := hmem
        rw [List.mem_append,List.mem_singleton,not_or] at hnot'
        exact hnot'.2 (owned_unique hk ((h.owned task).mpr ⟨hlt',hnot'.1⟩) ((hown gone).mpr (.inr runtime)))
    · rw [ht,he,Finset.mem_erase,h.running task,List.mem_append,List.mem_singleton,not_or]
      tauto
  | quiet hspawns htears runtime =>
    refine h.concat hspawns htears rfl rfl rfl fun task => ?_
    rw [hown' task,hown task,runtime]

theorem Accounted.step {labels : List (Step Thread)} {s s' : Threads Thread} (hk : Kept Settled Held s)
    (h : Accounted labels s) {l : Step Thread} (hstep : code.step s l = some s') : Accounted (labels ++ [l]) s' := by
  have hk' := sound.kept_step _ _ _ hk hstep
  cases l with
  | called t c =>
    obtain ⟨hidle,rfl⟩ := Code.step_called hstep
    refine h.concat rfl rfl rfl rfl rfl fun task => or_congr_right ⟨?_,?_⟩
    · rintro ⟨u,p,hp,hruntime⟩
      exact ⟨u,p,(inside_of_update nofun hp).2,hruntime⟩
    · rintro ⟨u,p,hp,hruntime⟩
      exact ⟨u,p,inside_of_called hidle hp,hruntime⟩
  | locked t c =>
    obtain ⟨_,hfree,rfl⟩ := Code.step_locked hstep
    refine h.concat rfl rfl rfl rfl rfl fun task => ?_
    rw [owned_free hk hfree,owned_inside hk' (Function.update_self t _ s.phase)]
    refine or_iff_left ?_
    cases c <;> nofun
  | acted t a => exact h.acted hk hstep
  | left t x =>
    obtain ⟨p,hp,hx,rfl⟩ := Code.step_left hstep
    refine h.concat rfl rfl rfl rfl rfl fun task => ?_
    rw [owned_free hk' rfl,owned_inside hk hp,runtime_of_exit hx]
    exact (or_iff_left nofun).symm
  | outside o =>
    obtain ⟨e,he,rfl⟩ := Code.step_outside hstep
    cases o with
    | setMemoryBudgetMb mb =>
      cases he
      exact h.concat rfl rfl rfl rfl rfl fun task => Iff.rfl
    | serveEnded gone =>
      obtain ⟨hmem,he⟩ := Option.ite_none_right_eq_some.mp he
      cases he
      have hs := filterMap_concat_none labels (show spawns (.outside (.serveEnded gone)) = none from rfl)
      have ht := filterMap_concat_none labels (show tearsDown (.outside (.serveEnded gone)) = none from rfl)
      have hn := filterMap_concat_some labels (show ends (.outside (.serveEnded gone)) = some gone from rfl)
      refine ⟨hs.trans h.spawned,?_,fun task hmem => ?_,fun task hmem => ?_,fun task => ?_,fun task => ?_⟩
      · rw [ht]
        exact h.once
      · rw [ht] at hmem
        exact h.tornDown task hmem
      · rw [hn,List.mem_append,List.mem_singleton] at hmem
        rcases hmem with hmem | rfl
        · exact h.ended task hmem
        · exact ((h.running task).mp ‹_›).1
      · rw [ht]
        exact h.owned task
      · rw [ht,hn,Finset.mem_erase,h.running task,List.mem_append,List.mem_singleton,not_or]
        tauto

/-- The books of every run are right. -/
theorem accounted_run {labels : List (Step Thread)} {s : Threads Thread} (h : run code.step labels idle = some s) :
    Accounted labels s := by
  induction labels using List.reverseRecOn generalizing s with
  | nil =>
    rw [← Option.some.inj h]
    exact accounted_start
  | append_singleton labels l ih =>
    obtain ⟨mid,hmid,hstep⟩ := run_concat_eq_some.mp h
    exact (ih hmid).step (kept_run hmid) hstep

/-- No runtime leaks: each one spawned on has one owner, and there is one owner, until it is torn down, which is
done once. When nobody is behind the lock and no engine is stored, all that were spawned on are torn down. -/
theorem runtimes_torn_down {labels : List (Step Thread)} {s : Threads Thread} (h : run code.step labels idle = some s) :
    Accounted labels s ∧ (∀ k k', Owned s k → Owned s k' → k = k') ∧
      (s.holder = none → s.data.engine = none → ∀ task ∈ labels.filterMap spawns, task ∈ labels.filterMap tearsDown) := by
  have hbooks := accounted_run h
  refine ⟨hbooks,fun _ _ => owned_unique (kept_run h),fun hfree hnone task hmem => ?_⟩
  rw [hbooks.spawned,List.mem_range] at hmem
  by_contra hnot
  have howned := (hbooks.owned task).mpr ⟨hmem,hnot⟩
  exact not_stored hnone task ((owned_free (kept_run h) hfree task).mp howned)

omit [DecidableEq Thread] in
theorem mem_ends {labels : List (Step Thread)} {task : ℕ} :
    task ∈ labels.filterMap ends ↔ .outside (.serveEnded task) ∈ labels := by
  rw [List.mem_filterMap]
  constructor
  · rintro ⟨l,hl,hends⟩
    cases l with
    | outside o =>
      cases o with
      | serveEnded k =>
        cases hends
        exact hl
      | setMemoryBudgetMb mb => cases hends
    | _ => cases hends
  · intro hl
    exact ⟨_,hl,rfl⟩

/-- The stored engine serves unless its task has ended by itself. -/
theorem stored_serves {labels : List (Step Thread)} {s : Threads Thread} (h : run code.step labels idle = some s)
    {r : Running} (hr : s.data.engine = some r) :
    r.task ∈ s.data.running ↔ .outside (.serveEnded r.task) ∉ labels := by
  have hbooks := accounted_run h
  obtain ⟨hlt,hnot⟩ := (hbooks.owned r.task).mp (.inl ⟨r,hr,rfl⟩)
  rw [hbooks.running,mem_ends]
  constructor
  · rintro ⟨_,_,hends⟩
    exact hends
  · intro hends
    exact ⟨hlt,hnot,hends⟩

/-- A port is alive under any threads exactly as long as the task of the stored engine has not ended
by itself, and every port that is handed out is that of the engine stored then. -/
theorem port_live_threads {labels : List (Step Thread)} {s : Threads Thread} (h : run code.step labels idle = some s) :
    (PortLive s.data ↔ ∀ r, s.data.engine = some r → .outside (.serveEnded r.task) ∉ labels) ∧
    ∀ t v s', code.step s (.left t (.returned (some v))) = some s' → v ≠ 0 →
      ∃ r, s'.data.engine = some r ∧ r.port.val = v ∧
        (r.task ∈ s'.data.running ↔ .outside (.serveEnded r.task) ∉ labels) := by
  constructor
  · rw [portLive_iff]
    constructor
    · rintro (hnone | ⟨r,hr,hserving⟩) r' hr'
      · rw [hnone] at hr'
        cases hr'
      · rw [hr] at hr'
        cases hr'
        exact (stored_serves h hr).mp hserving
    · intro hall
      cases hr : s.data.engine with
      | none => exact .inl rfl
      | some r => exact .inr ⟨r,hr,(stored_serves h hr).mpr (hall r hr)⟩
  · intro t v s' hstep hv
    obtain ⟨p,hp,hexit,rfl⟩ := Code.step_left hstep
    have hreturning : p = .returning (some v) := by
      cases p with
      | returning answer => rw [Exit.returned.inj (Option.some.inj hexit)]
      | unwinding r => cases r <;> cases hexit
      | _ => cases hexit
    obtain ⟨r,hr,hport⟩ := ((kept_run h).held t p hp).answer v hreturning hv
    exact ⟨r,hr,hport,stored_serves h hr⟩

end

/-- A start that panics before its store, and one that does not: the first runtime is dropped, the
second serves on until its task ends by itself. -/
def unlucky : List (Step ℕ) :=
  [.called 0 (.start phone),.called 1 (.start phone)] ++ launching 0 ++
    [.acted 0 (.spawned 0),.acted 0 .panicked,.acted 0 (.dropped 0),.left 0 .panicked] ++ launched 1 1 ++
    [.outside (.serveEnded 1)]

def unluckyStopped : List (Step ℕ) := unlucky ++ .called 0 .stop::stopping 0 1

theorem runtimes_torn_down_unlucky :
    ∃ s : Threads ℕ, run code.step unluckyStopped idle = some s ∧ s.data.launched.length = 2 ∧
      ∀ task ∈ unluckyStopped.filterMap spawns, task ∈ unluckyStopped.filterMap tearsDown := by
  have hrun : ((run code.step unluckyStopped (idle : Threads ℕ)).any fun s =>
      s.holder.isNone && s.data.engine.isNone && decide (s.data.launched.length = 2)) = true := by
    decide
  obtain ⟨s,hs,hboth⟩ := (Option.any_eq_true _ _).mp hrun
  simp only [Bool.and_eq_true,Option.isNone_iff_eq_none,decide_eq_true_eq] at hboth
  obtain ⟨⟨hfree,hnone⟩,hcount⟩ := hboth
  exact ⟨s,hs,hcount,(runtimes_torn_down hs).2.2 hfree hnone⟩

theorem port_live_threads_unlucky :
    ∃ s : Threads ℕ, run code.step unlucky idle = some s ∧ ¬ PortLive s.data := by
  have hrun : ((run code.step unlucky (idle : Threads ℕ)).any fun s =>
      decide (s.data.engine = some ⟨loopback,1⟩)) = true := by
    decide
  obtain ⟨s,hs,hr⟩ := (Option.any_eq_true _ _).mp hrun
  refine ⟨s,hs,fun hlive => ?_⟩
  exact (port_live_threads hs).1.mp hlive _ (of_decide_eq_true hr) (by simp [unlucky])

end ZkasSigner.Engine
