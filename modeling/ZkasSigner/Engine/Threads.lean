import ZkasSigner.Engine.Embedded
import ZkasSigner.Foundation.Monitor

/-! The engine called from many threads. What `start`, `stop` and `port` do behind the engine lock
goes step by step, and a panic may end it at any of them. -/
namespace ZkasSigner.Engine
open Foundation Foundation.Runs Foundation.Monitor

inductive Call where
  | start (a : StartArgs)
  | stop
  | port
  deriving DecidableEq

/-- Where the holder of the lock is. A place names the task whose runtime is in scope there. -/
inductive Place where
  | checking (a : StartArgs)
  | binding (a : StartArgs)
  | addressing (a : StartArgs)
  | building (a : StartArgs) (port : Port)
  | configuring (a : StartArgs) (port : Port) (cores : ℕ)
  | spawning (port : Port) (cfg : Config)
  | storing (port : Port) (task : ℕ)
  | taking
  | signalling (task : ℕ)
  | shutting (task : ℕ)
  | reading
  | returning (answer : Option UInt16)
  | unwinding (runtime : Option ℕ)

inductive Action where
  | checked
  | bound
  | addressed (port : Port)
  | built (parallelism : Option ℕ)
  | refused
  | configured
  | spawned (task : ℕ)
  | stored
  | took (task : ℕ)
  | vacant
  | signalled
  | shut (task : ℕ)
  | read
  | panicked
  | dropped (task : ℕ)
  deriving DecidableEq

namespace Place

def enter : Call → Place
  | .start a => .checking a
  | .stop => .taking
  | .port => .reading

/-- The task that dies with the runtime in scope. -/
def runtime : Place → Option ℕ
  | .storing _ task => some task
  | .signalling task => some task
  | .shutting task => some task
  | .unwinding runtime => runtime
  | _ => none

/-- A call that returns gives the guard back, and so does a panic once the runtime is dropped. -/
def exit : Place → Option (Exit (Option UInt16))
  | .returning answer => some (.returned answer)
  | .unwinding none => some .panicked
  | _ => none

/-- One step behind the lock. A panic drops the runtime before the guard: it is declared after
it in `start`, and bound inside its statement in `stop`. -/
def act : Place → Process → Action → Option (Place × Process)
  | .checking a, e, .checked =>
    match e.engine with
    | some r => some (.returning (some r.port),e)
    | none => some (.binding a,e)
  | .binding a, e, .bound => some (.addressing a,e)
  | .binding _, e, .refused => some (.returning (some 0),e)
  | .addressing a, e, .addressed port => some (.building a port,e)
  | .addressing _, e, .refused => some (.returning (some 0),e)
  | .building a port, e, .built parallelism => some (.configuring a port (parallelism.getD 2),e)
  | .building _ _, e, .refused => some (.returning (some 0),e)
  | .configuring a port cores, e, .configured => some (.spawning port (phoneConfig a port cores e.memBudgetMb),e)
  | .spawning port cfg, e, .spawned task =>
    if task = e.launched.length then
      some (.storing port task,{ e with launched := e.launched ++ [cfg], running := insert task e.running })
    else none
  | .storing port task, e, .stored => some (.returning (some port),{ e with engine := some ⟨port,task⟩ })
  | .taking, e, .took task =>
    match e.engine with
    | some r => if r.task = task then some (.signalling task,{ e with engine := none }) else none
    | none => none
  | .taking, e, .vacant => if e.engine = none then some (.returning none,e) else none
  | .signalling task, e, .signalled => some (.shutting task,e)
  | .shutting task, e, .shut task' =>
    if task' = task then some (.returning none,{ e with running := e.running.erase task }) else none
  | .reading, e, .read => some (.returning (some (Engine.port e)),e)
  | .unwinding (some task), e, .dropped task' =>
    if task' = task then some (.unwinding none,{ e with running := e.running.erase task }) else none
  | .unwinding _, _, _ => none
  | p, e, .panicked => some (.unwinding p.runtime,e)
  | _, _, _ => none

end Place

/-- What a call answers and leaves behind when no other call is there. -/
inductive Alone : Call → Process → Option UInt16 → Process → Prop where
  | start (a : StartArgs) (w : World) (e : Process) : Alone (.start a) e (some (start a w e).1) (start a w e).2
  | stop (e : Process) : Alone .stop e none (stop e)
  | port (e : Process) : Alone .port e (some (port e)) e

def actOn (s : Place × Process) (a : Action) : Option (Place × Process) := s.1.act s.2 a

/-- How far a call has come that found the process `e₀`. -/
def Follows (c : Call) (e₀ : Process) : Place × Process → Prop
  | (.checking a,e) => c = .start a ∧ e = e₀
  | (.binding a,e) => c = .start a ∧ e = e₀ ∧ e₀.engine = none
  | (.addressing a,e) => c = .start a ∧ e = e₀ ∧ e₀.engine = none
  | (.building a _,e) => c = .start a ∧ e = e₀ ∧ e₀.engine = none
  | (.configuring a _ _,e) => c = .start a ∧ e = e₀ ∧ e₀.engine = none
  | (.spawning port cfg,e) =>
    ∃ a cores, c = .start a ∧ e = e₀ ∧ e₀.engine = none ∧ cfg = phoneConfig a port cores e₀.memBudgetMb
  | (.storing port task,e) =>
    ∃ a cores, c = .start a ∧ e₀.engine = none ∧ { e with engine := some ⟨port,task⟩ } = launch a port cores e₀
  | (.taking,e) => c = .stop ∧ e = e₀
  | (.signalling task,e) => c = .stop ∧ ∃ r, e₀.engine = some r ∧ r.task = task ∧ e = { e₀ with engine := none }
  | (.shutting task,e) => c = .stop ∧ ∃ r, e₀.engine = some r ∧ r.task = task ∧ e = { e₀ with engine := none }
  | (.reading,e) => c = .port ∧ e = e₀
  | (.returning answer,e) => Alone c e₀ answer e
  | (.unwinding _,_) => True

theorem follows_act {c : Call} {e₀ : Process} (s : Place × Process) (a : Action) (s' : Place × Process)
    (h : Follows c e₀ s) (hact : actOn s a = some s') : Follows c e₀ s' := by
  obtain ⟨p,e⟩ := s
  revert hact
  unfold actOn
  dsimp only
  fun_cases Place.act p e a <;> intro ha <;> cases ha
  case case1 a r hr =>
    obtain ⟨rfl,rfl⟩ := h
    have hstart := Alone.start a willing e
    rwa [start_stored hr] at hstart
  case case2 hnone => exact ⟨h.1,h.2,h.2 ▸ hnone⟩
  case case3 => exact h
  case case4 a =>
    obtain ⟨rfl,rfl,hnone⟩ := h
    have hstart := Alone.start a ⟨false,none,none,false⟩ e
    rwa [start_refused hnone (.inl rfl)] at hstart
  case case5 => exact h
  case case6 a =>
    obtain ⟨rfl,rfl,hnone⟩ := h
    have hstart := Alone.start a ⟨true,none,none,false⟩ e
    rwa [start_refused hnone (.inr (.inl rfl))] at hstart
  case case7 => exact h
  case case8 a port =>
    obtain ⟨rfl,rfl,hnone⟩ := h
    have hstart := Alone.start a ⟨true,some port,none,false⟩ e
    rwa [start_refused hnone (.inr (.inr rfl))] at hstart
  case case9 a port cores =>
    obtain ⟨rfl,rfl,hnone⟩ := h
    exact ⟨a,cores,rfl,rfl,hnone,rfl⟩
  case case10 port cfg =>
    obtain ⟨a,cores,rfl,rfl,hnone,rfl⟩ := h
    exact ⟨a,cores,rfl,hnone,rfl⟩
  case case12 port task =>
    obtain ⟨a,cores,rfl,hnone,hlaunch⟩ := h
    have hstart := Alone.start a ⟨true,some port,some cores,true⟩ e₀
    rw [start_launched hnone rfl rfl rfl] at hstart
    exact hlaunch ▸ hstart
  case case13 r hr =>
    obtain ⟨rfl,rfl⟩ := h
    exact ⟨rfl,r,hr,rfl,rfl⟩
  case case16 hnone =>
    obtain ⟨rfl,rfl⟩ := h
    have hstop := Alone.stop e
    rwa [stop,hnone] at hstop
  case case18 => exact h
  case case19 task =>
    obtain ⟨rfl,r,hr,rfl,rfl⟩ := h
    have hstop := Alone.stop e₀
    rwa [stop,hr] at hstop
  case case21 =>
    obtain ⟨rfl,rfl⟩ := h
    exact .port e
  all_goals exact trivial

/-- A call that is left alone behind the lock answers and does what the whole call does. -/
theorem alone_iff {c : Call} {e e' : Process} {answer : Option UInt16} :
    Alone c e answer e' ↔ ∃ actions, run actOn actions (Place.enter c,e) = some (.returning answer,e') := by
  constructor
  · rintro (⟨a,w,e⟩ | e | e)
    · cases he : e.engine with
      | some r =>
        rw [start_stored he]
        exact ⟨[.checked],by simp [actOn,Place.enter,Place.act,he]⟩
      | none =>
        by_cases hbind : w.bind
        · cases hport : w.localAddr with
          | none =>
            rw [start_refused he (.inr (.inl hport))]
            exact ⟨[.checked,.bound,.refused],by simp [actOn,Place.enter,Place.act,he]⟩
          | some port =>
            by_cases hbuild : w.builds
            · rw [start_launched he hbind hport hbuild]
              refine ⟨[.checked,.bound,.addressed port,.built w.parallelism,.configured,.spawned e.launched.length,
                .stored],?_⟩
              simp [actOn,Place.enter,Place.act,he,launch]
            · rw [start_refused he (.inr (.inr (Bool.eq_false_of_not_eq_true hbuild)))]
              exact ⟨[.checked,.bound,.addressed port,.refused],by simp [actOn,Place.enter,Place.act,he]⟩
        · rw [start_refused he (.inl (Bool.eq_false_of_not_eq_true hbind))]
          exact ⟨[.checked,.refused],by simp [actOn,Place.enter,Place.act,he]⟩
    · cases he : e.engine with
      | none => exact ⟨[.vacant],by simp [actOn,Place.enter,Place.act,he,stop]⟩
      | some r => exact ⟨[.took r.task,.signalled,.shut r.task],by simp [actOn,Place.enter,Place.act,he,stop]⟩
    · exact ⟨[.read],rfl⟩
  · rintro ⟨actions,h⟩
    refine run_invariant (P := Follows c e) follows_act ?_ h
    cases c with
    | start a => exact ⟨rfl,rfl⟩
    | stop => exact ⟨rfl,rfl⟩
    | port => exact ⟨rfl,rfl⟩

/-- What changes the process without the lock. -/
inductive Outside where
  | serveEnded (task : ℕ)
  | setMemoryBudgetMb (mb : UInt32)
  deriving DecidableEq

def outside (e : Process) : Outside → Option Process
  | .serveEnded task => step e (.serveEnded task)
  | .setMemoryBudgetMb mb => step e (.setMemoryBudgetMb mb)

def code : Code Call Place Process Action (Option UInt16) Outside where
  enter := Place.enter
  act := Place.act
  exit := Place.exit
  outside := outside

namespace Place

/-- Between the check and the store of a start, and from the take of a stop on, no engine is stored. -/
def vacant : Place → Bool
  | .binding _ => true
  | .addressing _ => true
  | .building _ _ => true
  | .configuring _ _ _ => true
  | .spawning _ _ => true
  | .storing _ _ => true
  | .signalling _ => true
  | .shutting _ => true
  | .unwinding runtime => runtime.isSome
  | _ => false

theorem vacant_of_runtime {p : Place} {task : ℕ} (h : p.runtime = some task) : p.vacant = true := by
  cases p with
  | unwinding r =>
    rw [show r = some task from h]
    rfl
  | storing => rfl
  | signalling => rfl
  | shutting => rfl
  | _ => cases h

/-- What a step behind the lock can do to the process. -/
inductive Move (p : Place) (e : Process) : Action → Place → Process → Prop where
  | quiet {a : Action} {p' : Place} (runtime : p'.runtime = p.runtime)
      (vacant : p'.vacant = true → p.vacant = true ∨ e.engine = none)
      (answer : ∀ v, p' = .returning (some v) → v ≠ 0 → ∃ r, e.engine = some r ∧ r.port.val = v) : Move p e a p' e
  | spawned {port : Port} {cfg : Config} (place : p = .spawning port cfg) :
      Move p e (.spawned e.launched.length) (.storing port e.launched.length)
        { e with launched := e.launched ++ [cfg], running := insert e.launched.length e.running }
  | stored {port : Port} {task : ℕ} (place : p = .storing port task) :
      Move p e .stored (.returning (some port)) { e with engine := some ⟨port,task⟩ }
  | took {r : Running} (place : p = .taking) (engine : e.engine = some r) :
      Move p e (.took r.task) (.signalling r.task) { e with engine := none }
  | ended {a : Action} {p' : Place} {task : ℕ} (runtime : p.runtime = some task) (done : p'.runtime = none)
      (vacant : p'.vacant = false) (answer : ∀ v, p' ≠ .returning (some v)) :
      Move p e a p' { e with running := e.running.erase task }

theorem act_move {p p' : Place} {e e' : Process} {a : Action} (h : p.act e a = some (p',e')) : Move p e a p' e' := by
  revert h
  fun_cases act p e a <;> intro h <;> cases h
  case case10 => exact .spawned rfl
  case case12 => exact .stored rfl
  case case13 r hr => exact .took rfl hr
  case case19 => exact .ended rfl rfl rfl nofun
  case case22 => exact .ended rfl rfl rfl nofun
  -- the others leave the process as it is: an answer is the stored port or 0
  case case1 r hr =>
    refine .quiet rfl nofun fun v hv _ => ⟨r,hr,?_⟩
    exact Option.some.inj (returning.inj hv)
  case case21 =>
    refine .quiet rfl nofun fun v hv hne => ?_
    cases he : e.engine with
    | none =>
      cases hv
      exact absurd (port_eq_zero.mpr he) hne
    | some r =>
      cases hv
      exact ⟨r,rfl,by rw [port,he]; rfl⟩
  case case25 _ =>
    refine .quiet rfl (fun hsome => .inl ?_) nofun
    obtain ⟨task,htask⟩ := Option.isSome_iff_exists.mp hsome
    exact vacant_of_runtime htask
  case case2 hnone => exact .quiet rfl (fun _ => .inr hnone) nofun
  case case4 => exact .quiet rfl nofun fun v hv hne => absurd (Option.some.inj (returning.inj hv)).symm hne
  case case6 => exact .quiet rfl nofun fun v hv hne => absurd (Option.some.inj (returning.inj hv)).symm hne
  case case8 => exact .quiet rfl nofun fun v hv hne => absurd (Option.some.inj (returning.inj hv)).symm hne
  case case16 => exact .quiet rfl nofun nofun
  all_goals exact .quiet rfl (fun _ => .inl rfl) nofun

end Place

/-- The tasks that run were launched, and each is the stored engine's or dies with a runtime in scope. -/
structure Held (p : Place) (e : Process) : Prop where
  launched : ∀ task ∈ e.running, task < e.launched.length
  running : ∀ task ∈ e.running, p.runtime = some task ∨ ∃ r, e.engine = some r ∧ r.task = task
  vacant : p.vacant = true → e.engine = none
  answer : ∀ v, p = .returning (some v) → v ≠ 0 → ∃ r, e.engine = some r ∧ r.port.val = v

/-- What holds while nobody has the lock. -/
structure Settled (e : Process) : Prop where
  launched : ∀ task ∈ e.running, task < e.launched.length
  tracks : Tracks e

theorem held_enter (c : Call) {e : Process} (h : Settled e) : Held (Place.enter c) e := by
  refine ⟨h.launched,fun task ht => .inr (h.tracks task ht),?_,?_⟩
  · cases c <;> nofun
  · cases c <;> nofun

theorem held_act {p p' : Place} {e e' : Process} {a : Action} (h : Held p e) (hmove : Place.Move p e a p' e') :
    Held p' e' := by
  cases hmove with
  | quiet runtime vacant answer =>
    refine ⟨h.launched,?_,fun hv => ?_,answer⟩
    · rw [runtime]
      exact h.running
    · rcases vacant hv with hv | hnone
      · exact h.vacant hv
      · exact hnone
  | spawned place =>
    subst place
    have hnone : e.engine = none := h.vacant rfl
    refine ⟨fun task ht => ?_,fun task ht => ?_,fun _ => hnone,nofun⟩
    · rw [List.length_append,List.length_singleton]
      rcases Finset.mem_insert.mp ht with rfl | ht
      · exact Nat.lt_succ_self _
      · exact Nat.lt_succ_of_lt (h.launched task ht)
    · -- no other task runs: no engine is stored and no runtime is in scope
      rcases Finset.mem_insert.mp ht with rfl | ht
      · exact .inl rfl
      · rcases h.running task ht with hr | ⟨r,hr,_⟩
        · cases hr
        · rw [hnone] at hr
          cases hr
  | stored place =>
    subst place
    have hnone : e.engine = none := h.vacant rfl
    refine ⟨h.launched,fun task ht => .inr ⟨_,rfl,?_⟩,nofun,fun v hv _ => ⟨_,rfl,?_⟩⟩
    · rcases h.running task ht with hr | ⟨r,hr,_⟩
      · exact Option.some.inj hr
      · rw [hnone] at hr
        cases hr
    · exact Option.some.inj (Place.returning.inj hv)
  | took place engine =>
    subst place
    refine ⟨h.launched,fun task ht => ?_,fun _ => rfl,nofun⟩
    rcases h.running task ht with hr | ⟨r,hr,rfl⟩
    · cases hr
    · rw [engine] at hr
      cases hr
      exact .inl rfl
  | ended runtime done vacant answer =>
    have hnone := h.vacant (Place.vacant_of_runtime runtime)
    refine ⟨fun task ht => h.launched task (Finset.mem_of_mem_erase ht),fun task ht => ?_,fun _ => hnone,?_⟩
    · obtain ⟨hne,ht⟩ := Finset.mem_erase.mp ht
      rcases h.running task ht with hr | ⟨r,hr,_⟩
      · exact absurd (Option.some.inj (hr.symm.trans runtime)) hne
      · rw [hnone] at hr
        cases hr
    · exact fun v hv => absurd hv (answer v)

theorem runtime_of_exit {p : Place} {x : Exit (Option UInt16)} (h : p.exit = some x) : p.runtime = none := by
  cases p with
  | unwinding r =>
    cases r with
    | none => rfl
    | some task => cases h
  | returning => rfl
  | _ => cases h

/-- Without the lock a task may end, and nothing else about the engine changes. -/
theorem outside_cases {e e' : Process} {o : Outside} (h : outside e o = some e') :
    e'.engine = e.engine ∧ e'.launched = e.launched ∧ e'.running ⊆ e.running := by
  cases o with
  | serveEnded task =>
    obtain ⟨_,h⟩ := Option.ite_none_right_eq_some.mp h
    cases h
    exact ⟨rfl,rfl,Finset.erase_subset ..⟩
  | setMemoryBudgetMb mb =>
    cases h
    exact ⟨rfl,rfl,subset_rfl⟩

theorem Settled.outside {e e' : Process} {o : Outside} (h : Settled e) (ho : Engine.outside e o = some e') :
    Settled e' := by
  obtain ⟨hengine,hlaunched,hrunning⟩ := outside_cases ho
  refine ⟨fun task ht => ?_,fun task ht => ?_⟩
  · rw [hlaunched]
    exact h.launched task (hrunning ht)
  · rw [hengine]
    exact h.tracks task (hrunning ht)

theorem Held.outside {p : Place} {e e' : Process} {o : Outside} (h : Held p e)
    (ho : Engine.outside e o = some e') : Held p e' := by
  obtain ⟨hengine,hlaunched,hrunning⟩ := outside_cases ho
  refine ⟨fun task ht => ?_,fun task ht => ?_,?_,?_⟩
  · rw [hlaunched]
    exact h.launched task (hrunning ht)
  · rw [hengine]
    exact h.running task (hrunning ht)
  · rw [hengine]
    exact h.vacant
  · rw [hengine]
    exact h.answer

/-- Where the lock is given back no runtime is in scope. -/
theorem Held.exit {p : Place} {e : Process} {x : Exit (Option UInt16)} (h : Held p e) (hx : p.exit = some x) :
    Settled e := by
  refine ⟨h.launched,fun task ht => ?_⟩
  rcases h.running task ht with hr | hstored
  · rw [runtime_of_exit hx] at hr
    cases hr
  · exact hstored

theorem sound : Sound code Settled Held where
  enter c _ h := held_enter c h
  act _ _ _ _ _ h ha := held_act h (Place.act_move ha)
  exit _ _ _ h hx := h.exit hx
  outside_free _ _ _ h ho := h.outside ho
  outside_held _ _ _ _ h ho := h.outside ho

namespace Place

/-- A start has spawned this task and not stored it. -/
def starting (task : ℕ) : Place → Prop
  | .storing _ k => k = task
  | .unwinding runtime => runtime = some task
  | _ => False

/-- A stop has taken this task's engine and not shut it down. -/
def stopping (task : ℕ) : Place → Prop
  | .signalling k => k = task
  | .shutting k => k = task
  | .unwinding runtime => runtime = some task
  | _ => False

def ofStop : Place → Prop
  | .taking => True
  | .signalling _ => True
  | .shutting _ => True
  | .returning _ => True
  | .unwinding _ => True
  | _ => False

theorem exit_of_starting {p : Place} {task : ℕ} (h : p.starting task) : p.exit = none := by
  cases p with
  | storing => rfl
  | unwinding r =>
    rw [show r = some task from h]
    rfl
  | _ => exact h.elim

theorem exit_of_stopping {p : Place} {task : ℕ} (h : p.stopping task) : p.exit = none := by
  cases p with
  | signalling => rfl
  | shutting => rfl
  | unwinding r =>
    rw [show r = some task from h]
    rfl
  | _ => exact h.elim

theorem act_spawned {p p' : Place} {e e' : Process} {task : ℕ} (ha : p.act e (.spawned task) = some (p',e')) :
    ∃ port cfg, p = .spawning port cfg ∧ p' = .storing port task := by
  cases p with
  | spawning port cfg =>
    obtain ⟨_,ha⟩ := Option.ite_none_right_eq_some.mp ha
    cases ha
    exact ⟨port,cfg,rfl,rfl⟩
  | unwinding r => cases r <;> cases ha
  | _ => cases ha

theorem act_stored {p p' : Place} {e e' : Process} (ha : p.act e .stored = some (p',e')) :
    ∃ port task, p = .storing port task ∧ e'.engine = some ⟨port,task⟩ := by
  cases p with
  | storing port task =>
    cases ha
    exact ⟨port,task,rfl,rfl⟩
  | unwinding r => cases r <;> cases ha
  | _ => cases ha

theorem act_took {p p' : Place} {e e' : Process} {task : ℕ} (ha : p.act e (.took task) = some (p',e')) :
    p' = .signalling task := by
  cases p with
  | taking =>
    simp only [act] at ha
    split at ha
    · obtain ⟨_,ha⟩ := Option.ite_none_right_eq_some.mp ha
      cases ha
      rfl
    · cases ha
  | unwinding r => cases r <;> cases ha
  | _ => cases ha

theorem starting_act {p p' : Place} {e e' : Process} {a : Action} {task : ℕ} (h : p.starting task)
    (hdrop : a ≠ .dropped task) (ha : p.act e a = some (p',e')) : p'.starting task ∨ e'.engine ≠ none := by
  revert ha
  fun_cases act p e a <;> intro ha <;> cases ha
  case case12 => exact .inr nofun
  case case22 => exact absurd (congrArg Action.dropped (Option.some.inj h)) hdrop
  case case25 hne =>
    left
    cases p with
    | storing => exact congrArg some h
    | unwinding r => exact absurd rfl (hne r)
    | _ => exact h.elim
  all_goals exact h.elim

theorem stopping_act {p p' : Place} {e e' : Process} {a : Action} {task : ℕ} (h : p.stopping task)
    (hshut : a ≠ .shut task) (hdrop : a ≠ .dropped task) (ha : p.act e a = some (p',e')) : p'.stopping task := by
  revert ha
  fun_cases act p e a <;> intro ha <;> cases ha
  case case18 => exact h
  case case19 => exact absurd (congrArg Action.shut h) hshut
  case case22 => exact absurd (congrArg Action.dropped (Option.some.inj h)) hdrop
  case case25 hne =>
    cases p with
    | signalling => exact congrArg some h
    | shutting => exact congrArg some h
    | unwinding r => exact absurd rfl (hne r)
    | _ => exact h.elim
  all_goals exact h.elim

theorem ofStop_act {p p' : Place} {e e' : Process} {a : Action} (h : p.ofStop) (ha : p.act e a = some (p',e')) :
    p'.ofStop := by
  revert ha
  fun_cases act p e a <;> intro ha <;> cases ha
  case case2 => exact h.elim
  case case3 => exact h.elim
  case case5 => exact h.elim
  case case7 => exact h.elim
  case case9 => exact h.elim
  case case10 => exact h.elim
  all_goals exact trivial

end Place

/-- A stored engine stays until a stop takes it. -/
theorem engine_act {p p' : Place} {e e' : Process} {a : Action} {r : Running} (h : Held p e)
    (htook : ∀ task, a ≠ .took task) (ha : p.act e a = some (p',e')) (hr : e.engine = some r) :
    e'.engine = some r := by
  cases Place.act_move ha with
  | quiet => exact hr
  | spawned place => exact hr
  | stored place =>
    subst place
    rw [h.vacant rfl] at hr
    cases hr
  | took place engine => exact absurd rfl (htook _)
  | ended => exact hr

section Runs

abbrev Threads (Thread : Type*) := State Thread Call Place Process
abbrev Step (Thread : Type*) := Label Thread Call Action (Option UInt16) Outside

variable {Thread : Type*}

theorem until_stored (t : Thread) (task : ℕ) :
    Until code Held (fun l : Step Thread => (∀ u k, l ≠ .acted u (.took k)) ∧ l ≠ .acted t (.dropped task)) t
      (Place.starting task) (fun e => e.engine ≠ none) where
  stays _ hp := .inl (Place.exit_of_starting hp)
  act _ _ _ _ _ hp hl ha := Place.starting_act hp (fun he => hl.2 (congrArg _ he)) ha
  keeps u _ _ _ _ _ hsome hp hl ha := by
    obtain ⟨r,hr⟩ := Option.ne_none_iff_exists'.mp hsome
    rw [engine_act hp (fun k he => hl.1 u k (congrArg _ he)) ha hr]
    nofun
  outside _ _ _ hsome ho := by
    rw [(outside_cases ho).1]
    exact hsome

theorem until_shut (u : Thread) (task : ℕ) :
    Until code Held (fun l : Step Thread => l ≠ .acted u (.shut task) ∧ l ≠ .acted u (.dropped task)) u
      (Place.stopping task) (fun _ => False) where
  stays _ hp := .inl (Place.exit_of_stopping hp)
  act _ _ _ _ _ hp hl ha :=
    .inl (Place.stopping_act hp (fun he => hl.1 (congrArg _ he)) (fun he => hl.2 (congrArg _ he)) ha)
  keeps _ _ _ _ _ _ h := h.elim
  outside _ _ _ h := h.elim

theorem until_left (u : Thread) :
    Until code Held (fun l : Step Thread => ∀ x, l ≠ .left u x) u Place.ofStop (fun _ => False) where
  stays _ _ := .inr fun x h => h x rfl
  act _ _ _ _ _ hp _ ha := .inl (Place.ofStop_act hp ha)
  keeps _ _ _ _ _ _ h := h.elim
  outside _ _ _ h := h.elim

theorem until_taken (t : Thread) (r : Running) :
    Until code Held (fun l : Step Thread => ∀ u k, l ≠ .acted u (.took k)) t (fun _ => False)
      (fun e => e.engine = some r) where
  stays _ h := h.elim
  act _ _ _ _ _ h := h.elim
  keeps u _ _ _ _ _ hr hp hl ha := engine_act hp (fun k he => hl u k (congrArg _ he)) ha hr
  outside _ _ _ hr ho := (outside_cases ho).1.trans hr

variable [DecidableEq Thread]

theorem settled_initial : Settled initial :=
  ⟨fun _ ht => absurd ht (Finset.notMem_empty _),fun _ ht => absurd ht (Finset.notMem_empty _)⟩

/-- An app that has just been started: no call yet. -/
def idle : Threads Thread := Code.start initial

theorem kept_run {labels : List (Step Thread)} {s : Threads Thread} (h : run code.step labels idle = some s) :
    Kept Settled Held s :=
  sound.kept_run (kept_start settled_initial) h

omit [DecidableEq Thread] in
/-- Whatever the threads do, no two serve tasks run. -/
theorem running_card {s : Threads Thread} (h : Kept Settled Held s) : s.data.running.card ≤ 1 := by
  refine Finset.card_le_one.mpr fun i hi j hj => ?_
  cases hholder : s.holder with
  | none =>
    obtain ⟨r,hr,rfl⟩ := (h.free hholder).tracks i hi
    obtain ⟨r',hr',rfl⟩ := (h.free hholder).tracks j hj
    rw [Option.some.inj (hr.symm.trans hr')]
  | some t =>
    obtain ⟨p,hp⟩ := h.behind t hholder
    have hheld := h.held t p hp
    -- with a runtime in scope no engine is stored
    have hvacant : ∀ {k}, p.runtime = some k → ∀ {r}, s.data.engine ≠ some r := fun hk _ hr => by
      rw [hheld.vacant (Place.vacant_of_runtime hk)] at hr
      cases hr
    rcases hheld.running i hi with hi | ⟨r,hr,rfl⟩
    · rcases hheld.running j hj with hj | ⟨r,hr,_⟩
      · exact Option.some.inj (hi.symm.trans hj)
      · exact absurd hr (hvacant hi)
    · rcases hheld.running j hj with hj | ⟨r',hr',rfl⟩
      · exact absurd hr (hvacant hj)
      · rw [Option.some.inj (hr.symm.trans hr')]

theorem step_spawned {s s' : Threads Thread} {t : Thread} {task : ℕ}
    (h : code.step s (.acted t (.spawned task)) = some s') :
    ∃ port cfg, s.phase t = .inside (.spawning port cfg) ∧ s'.phase t = .inside (.storing port task) := by
  obtain ⟨p,p',e',hp,ha,rfl⟩ := Code.step_acted h
  obtain ⟨port,cfg,rfl,rfl⟩ := Place.act_spawned ha
  exact ⟨port,cfg,hp,Function.update_self ..⟩

/-- A start that spawns after a stop has got the lock does so when that stop has given it back,
and when what the stop took is shut down, or dropped by a panic. -/
def StopsFirst (labels : List (Step Thread)) : Prop :=
  ∀ front u mid t task back, labels = front ++ .locked u .stop::(mid ++ .acted t (.spawned task)::back) →
    (∃ x, .left u x ∈ mid) ∧ ∀ k, .acted u (.took k) ∈ mid → .acted u (.shut k) ∈ mid ∨ .acted u (.dropped k) ∈ mid

/-- Starts with no stop between them: a second one spawns when the first panicked before its store
and its runtime was dropped, one of them stores, and the ports they return are one port. -/
structure OneStart (labels : List (Step Thread)) : Prop where
  spawned : ∀ front t task mid t' task' back,
    labels = front ++ .acted t (.spawned task)::(mid ++ .acted t' (.spawned task')::back) →
      .acted t (.dropped task) ∈ mid
  stored : ∀ front t mid t' back, labels ≠ front ++ .acted t .stored::(mid ++ .acted t' .stored::back)
  port : ∀ t v t' v', .left t (.returned (some v)) ∈ labels → .left t' (.returned (some v')) ∈ labels →
    v ≠ 0 → v' ≠ 0 → v = v'

theorem took_shut {a b : Threads Thread} {u t : Thread} {k task : ℕ} {front mid back : List (Step Thread)}
    (ha : Kept Settled Held a)
    (h : run code.step (front ++ .acted u (.took k)::(mid ++ .acted t (.spawned task)::back)) a = some b) :
    .acted u (.shut k) ∈ mid ∨ .acted u (.dropped k) ∈ mid := by
  by_contra hnone
  obtain ⟨hshut,hdrop⟩ := not_or.mp hnone
  obtain ⟨s,s',hfront,htook,h⟩ := run_through_eq_some.mp h
  obtain ⟨c,d,hmid,hspawn,_⟩ := run_through_eq_some.mp h
  have hs' := sound.kept_step _ _ _ (sound.kept_run ha hfront) htook
  have htaken : Reached u (Place.stopping k) (fun _ => False) s' := by
    obtain ⟨p,p',e',_,hact,rfl⟩ := Code.step_acted htook
    obtain rfl := Place.act_took hact
    exact .inl ⟨_,Function.update_self ..,rfl⟩
  have hallowed : ∀ l ∈ mid, l ≠ .acted u (.shut k) ∧ l ≠ .acted u (.dropped k) := fun l hl =>
    ⟨fun he => hshut (he ▸ hl),fun he => hdrop (he ▸ hl)⟩
  rcases (until_shut u k).run sound hallowed hs' htaken hmid with ⟨p,hp,hstop⟩ | hfalse
  · obtain ⟨port,cfg,hq,_⟩ := step_spawned hspawn
    obtain rfl := (sound.kept_run hs' hmid).same hp hq
    rw [hp] at hq
    cases hq
    exact hstop
  · exact hfalse

theorem stopsFirst_run {labels : List (Step Thread)} {s : Threads Thread} (h : run code.step labels idle = some s) :
    StopsFirst labels := by
  rintro front u mid t task back rfl
  obtain ⟨a,b,hfront,hlock,h⟩ := run_through_eq_some.mp h
  have hb := sound.kept_step _ _ _ (kept_run hfront) hlock
  refine ⟨?_,fun k hk => ?_⟩
  · by_contra hleft
    obtain ⟨c,d,hmid,hspawn,_⟩ := run_through_eq_some.mp h
    have htaking : Reached u Place.ofStop (fun _ => False) b := by
      obtain ⟨_,_,rfl⟩ := Code.step_locked hlock
      exact .inl ⟨_,Function.update_self ..,trivial⟩
    rcases (until_left u).run sound (fun l hl x he => hleft ⟨x,he ▸ hl⟩) hb htaking hmid with ⟨p,hp,hstop⟩ | hfalse
    · obtain ⟨port,cfg,hq,_⟩ := step_spawned hspawn
      obtain rfl := (sound.kept_run hb hmid).same hp hq
      rw [hp] at hq
      cases hq
      exact hstop
    · exact hfalse
  · obtain ⟨first,rest,rfl⟩ := List.append_of_mem hk
    rw [List.append_assoc,List.cons_append] at h
    rcases took_shut hb h with hshut | hdrop
    · exact .inl (by simp [hshut])
    · exact .inr (by simp [hdrop])

/-- A port other than 0 that is returned is that of the stored engine, from then on until a stop. -/
theorem answer_run {labels : List (Step Thread)} {a b : Threads Thread} (ha : Kept Settled Held a)
    (h : run code.step labels a = some b) (hno : ∀ u k, .acted u (.took k) ∉ labels) {t : Thread} {v : UInt16}
    (hmem : .left t (.returned (some v)) ∈ labels) (hv : v ≠ 0) : ∃ r, b.data.engine = some r ∧ r.port.val = v := by
  obtain ⟨front,back,rfl⟩ := List.append_of_mem hmem
  obtain ⟨c,d,hfront,hleft,hback⟩ := run_through_eq_some.mp h
  have hc := sound.kept_run ha hfront
  obtain ⟨p,hp,hexit,hd⟩ := Code.step_left hleft
  have hreturning : p = .returning (some v) := by
    cases p with
    | returning answer => rw [Exit.returned.inj (Option.some.inj hexit)]
    | unwinding r => cases r <;> cases hexit
    | _ => cases hexit
  obtain ⟨r,hr,hport⟩ := (hc.held t p hp).answer v hreturning hv
  have hallowed : ∀ l ∈ back, ∀ u k, l ≠ .acted u (.took k) := fun l hl u k he =>
    hno u k (List.mem_append_right _ (List.mem_cons_of_mem _ (he ▸ hl)))
  rcases (until_taken t r).run sound hallowed (sound.kept_step _ _ _ hc hleft) (.inr (hd ▸ hr)) hback with ⟨_,_,hfalse⟩ | hr
  · exact hfalse.elim
  · exact ⟨r,hr,hport⟩

section
variable {a b : Threads Thread} (ha : Kept Settled Held a)
include ha

/-- Without a stop a second start spawns only when the first lost its runtime before its store. -/
theorem spawned_dropped {front mid back : List (Step Thread)} {t t' : Thread} {task task' : ℕ}
    (h : run code.step (front ++ .acted t (.spawned task)::(mid ++ .acted t' (.spawned task')::back)) a = some b)
    (hno : ∀ u k, .acted u (.took k) ∉ mid) : .acted t (.dropped task) ∈ mid := by
  by_contra hdrop
  obtain ⟨s,s',hfront,hspawn,h⟩ := run_through_eq_some.mp h
  obtain ⟨c,d,hmid,hspawn',_⟩ := run_through_eq_some.mp h
  have hs' := sound.kept_step _ _ _ (sound.kept_run ha hfront) hspawn
  have hc := sound.kept_run hs' hmid
  obtain ⟨port,cfg,_,hstoring⟩ := step_spawned hspawn
  obtain ⟨port',cfg',hq,_⟩ := step_spawned hspawn'
  have hallowed : ∀ l ∈ mid, (∀ u k, l ≠ .acted u (.took k)) ∧ l ≠ .acted t (.dropped task) := fun l hl =>
    ⟨fun u k he => hno u k (he ▸ hl),fun he => hdrop (he ▸ hl)⟩
  rcases (until_stored t task).run sound hallowed hs' (.inl ⟨_,hstoring,rfl⟩) hmid with ⟨p,hp,hstart⟩ | hsome
  · obtain rfl := hc.same hp hq
    rw [hp] at hq
    cases hq
    exact hstart
  · exact hsome ((hc.held t' _ hq).vacant rfl)

theorem stored_once {front mid back : List (Step Thread)} {t t' : Thread}
    (h : run code.step (front ++ .acted t .stored::(mid ++ .acted t' .stored::back)) a = some b)
    (hno : ∀ u k, .acted u (.took k) ∉ mid) : False := by
  obtain ⟨s,s',hfront,hstore,h⟩ := run_through_eq_some.mp h
  obtain ⟨c,d,hmid,hstore',_⟩ := run_through_eq_some.mp h
  have hs' := sound.kept_step _ _ _ (sound.kept_run ha hfront) hstore
  have hc := sound.kept_run hs' hmid
  obtain ⟨p,p',e',_,hact,rfl⟩ := Code.step_acted hstore
  obtain ⟨port,task,_,hr⟩ := Place.act_stored hact
  obtain ⟨q,q',e'',hq,hact',rfl⟩ := Code.step_acted hstore'
  obtain ⟨port',task',rfl,_⟩ := Place.act_stored hact'
  have hallowed : ∀ l ∈ mid, ∀ u k, l ≠ .acted u (.took k) := fun l hl u k he => hno u k (he ▸ hl)
  rcases (until_taken t _).run sound hallowed hs' (.inr hr) hmid with ⟨_,_,hfalse⟩ | hr
  · exact hfalse
  · rw [(hc.held t' _ hq).vacant rfl] at hr
    cases hr

end

theorem oneStart_run {labels : List (Step Thread)} {a b : Threads Thread} (ha : Kept Settled Held a)
    (h : run code.step labels a = some b) (hno : ∀ u k, .acted u (.took k) ∉ labels) : OneStart labels where
  spawned front t task mid t' task' back hl := by
    subst hl
    exact spawned_dropped ha h fun u k hk => hno u k (by simp [hk])
  stored front t mid t' back hl := by
    subst hl
    exact stored_once ha h fun u k hk => hno u k (by simp [hk])
  port t v t' v' ht ht' hv hv' := by
    obtain ⟨r,hr,rfl⟩ := answer_run ha h hno ht hv
    obtain ⟨r',hr',rfl⟩ := answer_run ha h hno ht' hv'
    rw [Option.some.inj (hr.symm.trans hr')]

/-- Never two engines at once: in no state do two serve tasks run, a start that comes after a stop
waits for its shutdown, and starts with no stop between them agree on one engine. -/
theorem one_engine {labels : List (Step Thread)} {s : Threads Thread} (h : run code.step labels idle = some s) :
    s.data.running.card ≤ 1 ∧ StopsFirst labels ∧
      ∀ front starts back, labels = front ++ (starts ++ back) → (∀ u k, .acted u (.took k) ∉ starts) →
        OneStart starts := by
  refine ⟨running_card (kept_run h),stopsFirst_run h,?_⟩
  rintro front starts back rfl hno
  obtain ⟨a,hfront,h⟩ := run_append_eq_some.mp h
  obtain ⟨b,hstarts,_⟩ := run_append_eq_some.mp h
  exact oneStart_run (kept_run hfront) hstarts hno

/-- No start spawns between the call of a stop and its shutdown. -/
def WaitsForStop (labels : List (Step Thread)) : Prop :=
  ∀ front u mid t task mid' k back,
    labels = front ++ .called u .stop::(mid ++ .acted t (.spawned task)::(mid' ++ .acted u (.shut k)::back)) →
      ∃ x, .left u x ∈ mid ++ mid'

/-- A start that spawns after a stop has taken the engine finds it shut down. -/
def WaitsForShutdown (labels : List (Step Thread)) : Prop :=
  ∀ front u k mid t task back, labels = front ++ .acted u (.took k)::(mid ++ .acted t (.spawned task)::back) →
    .acted u (.shut k) ∈ mid

/-- Without a stop one start spawns. -/
def SpawnsOnce (labels : List (Step Thread)) : Prop :=
  (∀ u, .called u .stop ∉ labels) → ∀ front t task mid t' task' back,
    labels ≠ front ++ .acted t (.spawned task)::(mid ++ .acted t' (.spawned task')::back)

end Runs

def launching (t : ℕ) : List (Step ℕ) :=
  [.locked t (.start phone),.acted t .checked,.acted t .bound,.acted t (.addressed loopback),
    .acted t (.built (some 8)),.acted t .configured]

def launched (t task : ℕ) : List (Step ℕ) :=
  launching t ++ [.acted t (.spawned task),.acted t .stored,.left t (.returned (some 40001))]

def stopping (u k : ℕ) : List (Step ℕ) :=
  [.locked u .stop,.acted u (.took k),.acted u .signalled,.acted u (.shut k),.left u (.returned none)]

/-- A start spawns while a stop waits for the lock, or after a stop that panicked with the engine
it took, or after another start that panicked before its store. -/
theorem spawned_before_shut :
    ¬ (∀ (labels : List (Step ℕ)) (s : Threads ℕ), run code.step labels idle = some s → WaitsForStop labels) ∧
    ¬ (∀ (labels : List (Step ℕ)) (s : Threads ℕ), run code.step labels idle = some s → WaitsForShutdown labels) ∧
    ¬ (∀ (labels : List (Step ℕ)) (s : Threads ℕ), run code.step labels idle = some s → SpawnsOnce labels) := by
  refine ⟨fun h => ?_,fun h => ?_,fun h => ?_⟩
  · have hrun : (run code.step (.called 0 (.start phone)::.called 1 .stop::(launched 0 0 ++ stopping 1 0)) idle).isSome = true := by
      decide
    obtain ⟨s,hs⟩ := Option.isSome_iff_exists.mp hrun
    obtain ⟨x,hx⟩ := h _ s hs [.called 0 (.start phone)] 1 (launching 0) 0 0
      [.acted 0 .stored,.left 0 (.returned (some 40001)),.locked 1 .stop,.acted 1 (.took 0),.acted 1 .signalled] 0
      [.left 1 (.returned none)] rfl
    simp [launching] at hx
  · have hrun : (run code.step (.called 0 (.start phone)::launched 0 0 ++ [.called 1 .stop,.locked 1 .stop,
        .acted 1 (.took 0),.called 0 (.start phone),.acted 1 .panicked,.acted 1 (.dropped 0),.left 1 .panicked] ++
        launched 0 1) idle).isSome = true := by
      decide
    obtain ⟨s,hs⟩ := Option.isSome_iff_exists.mp hrun
    have hshut := h _ s hs (.called 0 (.start phone)::launched 0 0 ++ [.called 1 .stop,.locked 1 .stop]) 1 0
      ([.called 0 (.start phone),.acted 1 .panicked,.acted 1 (.dropped 0),.left 1 .panicked] ++ launching 0) 0 1
      [.acted 0 .stored,.left 0 (.returned (some 40001))] rfl
    simp [launching] at hshut
  · have hrun : (run code.step ([.called 0 (.start phone),.called 1 (.start phone)] ++ launching 0 ++
        [.acted 0 (.spawned 0),.acted 0 .panicked,.acted 0 (.dropped 0),.left 0 .panicked] ++
        launched 1 1) idle).isSome = true := by
      decide
    obtain ⟨s,hs⟩ := Option.isSome_iff_exists.mp hrun
    refine h _ s hs (fun u => ?_) ([.called 0 (.start phone),.called 1 (.start phone)] ++ launching 0) 0 0
      ([.acted 0 .panicked,.acted 0 (.dropped 0),.left 0 .panicked] ++ launching 1) 1 1
      [.acted 1 .stored,.left 1 (.returned (some 40001))] rfl
    simp [launching,launched]

/-- A start launches, and another one finds what it launched. -/
def joined : List (Step ℕ) :=
  launched 0 1 ++ [.called 1 (.start phone),.locked 1 (.start phone),.acted 1 .checked,.left 1 (.returned (some 40001))]

/-- One thread starts the engine, a second one stops it while the first starts again, and then starts it too. -/
def restarted : List (Step ℕ) :=
  .called 0 (.start phone)::launched 0 0 ++ [.called 1 .stop,.called 0 (.start phone)] ++ stopping 1 0 ++ joined

theorem one_engine_restarted :
    ∃ s : Threads ℕ, run code.step restarted idle = some s ∧ s.data.running.card ≤ 1 ∧ StopsFirst restarted ∧
      OneStart joined := by
  have hrun : (run code.step restarted (idle : Threads ℕ)).isSome = true := by
    decide
  obtain ⟨s,hs⟩ := Option.isSome_iff_exists.mp hrun
  obtain ⟨hcard,hstops,hstarts⟩ := one_engine hs
  refine ⟨s,hs,hcard,hstops,hstarts (.called 0 (.start phone)::launched 0 0 ++
    [.called 1 .stop,.called 0 (.start phone)] ++ stopping 1 0) joined [] rfl ?_⟩
  simp [joined,launched,launching]

end ZkasSigner.Engine
