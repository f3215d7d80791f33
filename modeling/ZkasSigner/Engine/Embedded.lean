import ZkasSigner.Foundation.Runs
import Mathlib.Data.List.Induction
import Mathlib.Data.Finset.Basic
import Mathlib.Data.UInt

/-! The wallet engine inside a phone app. One stored handle says that an engine is there; the
serve task it was started with may end behind its back. -/
namespace ZkasSigner.Engine
open Foundation.Runs

/-- What a bound listener is told: never 0. -/
abbrev Port := {p : UInt16 // p ≠ 0}

/-- The resources `start` sets. The other fields keep the engine's own defaults. -/
structure ResourceLimits where
  pageDecodeThreads : ℕ
  syncWallets : ℕ
  loadWallets : ℕ
  maxResidentWallets : ℕ
  warmWallets : ℕ
  prefetchDepth : ℕ
  pageCacheTtlSecs : ℕ
  pageCacheEntries : ℕ
  maxFullScanBlocks : Option ℕ
  deriving DecidableEq, Repr

/-- What an engine is started with. -/
structure Config where
  rpcServer : String
  listen : (ℕ × ℕ × ℕ × ℕ) × Port
  walletDir : String
  network : String
  allowOrigin : List String
  allowDefaultToken : Bool
  enableMultiparty : Bool
  walletSecret : Option String
  allowCustodial : Bool
  maxConcurrentProves : ℕ
  buildSharedTree : Bool
  resources : ResourceLimits
  nodeSocksProxy : Option String
  deriving DecidableEq

structure StartArgs where
  nodeAddr : String
  walletDir : String
  secret : Option String
  socks : Option String
  deriving DecidableEq

/-- How the calls `start` makes turn out: the port it is given or no listener, the number of
cores if it is known, and whether a runtime can be built. -/
structure World where
  bind : Bool
  localAddr : Option Port
  parallelism : Option ℕ
  builds : Bool

/-- Half the budget of the app at 192 MB a wallet, and never none. -/
def maxResidentWallets (budget : UInt32) : ℕ :=
  if 0 < budget then max (budget/2/192).toNat 1 else 2

def phoneLimits (cores : ℕ) (budget : UInt32) : ResourceLimits where
  pageDecodeThreads := max cores 1
  syncWallets := 1
  loadWallets := 1
  maxResidentWallets := maxResidentWallets budget
  warmWallets := 1
  prefetchDepth := 8
  pageCacheTtlSecs := 60
  pageCacheEntries := 8+2
  maxFullScanBlocks := some 1500000

def phoneConfig (a : StartArgs) (port : Port) (cores : ℕ) (budget : UInt32) : Config where
  rpcServer := a.nodeAddr
  listen := ((127,0,0,1),port)
  walletDir := a.walletDir
  network := "mainnet"
  allowOrigin := ["http://localhost","https://localhost","capacitor://localhost"]
  allowDefaultToken := false
  enableMultiparty := false
  walletSecret := a.secret
  allowCustodial := true
  maxConcurrentProves := 1
  buildSharedTree := false
  resources := phoneLimits cores budget
  nodeSocksProxy := a.socks

/-- The stored handle. Its runtime and its shutdown channel are those of one serve task. -/
structure Running where
  port : Port
  task : ℕ
  deriving DecidableEq

/-- The process: the stored handle, every configuration an engine was launched with, so that a
task is a position in that list, and the tasks that have not ended. -/
structure Process where
  engine : Option Running
  launched : List Config
  running : Finset ℕ
  memBudgetMb : UInt32
  deriving DecidableEq

def initial : Process := ⟨none,[],∅,0⟩

/-- `runtime.spawn` and the store behind it. -/
def launch (a : StartArgs) (port : Port) (cores : ℕ) (e : Process) : Process :=
  { e with
    engine := some ⟨port,e.launched.length⟩
    launched := e.launched ++ [phoneConfig a port cores e.memBudgetMb]
    running := insert e.launched.length e.running }

/-- The port of the stored engine, or of a new one, or 0 on failure. -/
def start (a : StartArgs) (w : World) (e : Process) : UInt16 × Process :=
  match e.engine with
  | some r => (r.port,e)
  | none =>
    if !w.bind then (0,e)
    else
      match w.localAddr with
      | none => (0,e)
      | some port =>
        let cores := w.parallelism.getD 2
        if !w.builds then (0,e) else (port,launch a port cores e)

/-- When the wait for the runtime is over, its task no longer runs. -/
def stop (e : Process) : Process :=
  match e.engine with
  | none => e
  | some r => { e with engine := none, running := e.running.erase r.task }

/-- The port of the stored engine, or 0. -/
def port (e : Process) : UInt16 := (e.engine.map fun r => r.port.val).getD 0

/-- A cap above one wallet fits in half of the app's budget. -/
theorem maxResidentWallets_budget {budget : UInt32} (h : 0 < budget) :
    1 ≤ maxResidentWallets budget ∧
      (maxResidentWallets budget = 1 ∨ 192*maxResidentWallets budget ≤ budget.toNat/2) := by
  have hcount : (budget/2/192).toNat = budget.toNat/2/192 := by simp
  rw [maxResidentWallets,if_pos h,hcount]
  omega

/-- The calls of the app, and the one thing that happens without a call: a serve task ends. -/
inductive Event where
  | start (a : StartArgs) (w : World)
  | stop
  | port
  | setMemoryBudgetMb (mb : UInt32)
  | serveEnded (task : ℕ)

def step (e : Process) : Event → Option Process
  | .start a w => some (start a w e).2
  | .stop => some (stop e)
  | .port => some e
  | .setMemoryBudgetMb mb => some { e with memBudgetMb := mb }
  | .serveEnded task => if task ∈ e.running then some { e with running := e.running.erase task } else none

/-- The stored engine's own task has not ended. -/
def Serving (e : Process) : Prop := ∃ r, e.engine = some r ∧ r.task ∈ e.running

/-- A port that is reported is the port of a live engine. -/
structure PortLive (e : Process) : Prop where
  port : port e ≠ 0 → Serving e
  start : ∀ a w, e.engine.isSome = true → (start a w e).1 ≠ 0 → Serving e

/-- Nothing runs but the task of the stored engine. -/
def Tracks (e : Process) : Prop := ∀ k ∈ e.running, ∃ r, e.engine = some r ∧ r.task = k

theorem port_eq_zero {e : Process} : port e = 0 ↔ e.engine = none := by
  unfold port
  cases he : e.engine with
  | none => simp
  | some r => simpa using r.port.property

theorem portLive_iff {e : Process} : PortLive e ↔ e.engine = none ∨ Serving e := by
  constructor
  · intro h
    by_cases hport : port e = 0
    · exact .inl (port_eq_zero.mp hport)
    · exact .inr (h.port hport)
  · rintro (h | h)
    · exact ⟨fun hport => absurd (port_eq_zero.mpr h) hport,fun _ _ hsome => by simp [h] at hsome⟩
    · exact ⟨fun _ => h,fun _ _ _ _ => h⟩

section
variable {a : StartArgs} {w : World} {e : Process}

theorem start_stored {r : Running} (h : e.engine = some r) : start a w e = (r.port.val,e) := by
  rw [start,h]

theorem start_refused (h : e.engine = none) (hw : w.bind = false ∨ w.localAddr = none ∨ w.builds = false) :
    start a w e = (0,e) := by
  rw [start,h]
  rcases hw with hw | hw | hw
  · simp [hw]
  · simp [hw]
  · cases w.localAddr <;> simp [hw]

theorem start_launched {port : Port} (h : e.engine = none) (hbind : w.bind = true) (hport : w.localAddr = some port)
    (hbuilds : w.builds = true) : start a w e = (port.val,launch a port (w.parallelism.getD 2) e) := by
  rw [start,h]
  simp [hbind,hport,hbuilds]

end

/-- A start either leaves everything as it is, or it launches an engine where none was stored. -/
theorem start_cases (a : StartArgs) (w : World) (e : Process) :
    (start a w e).2 = e ∨ e.engine = none ∧ ∃ port cores, (start a w e).2 = launch a port cores e := by
  cases he : e.engine with
  | some r =>
    left
    rw [start_stored he]
  | none =>
    by_cases hw : w.bind = false ∨ w.localAddr = none ∨ w.builds = false
    · left
      rw [start_refused he hw]
    · right
      obtain ⟨hbind,hport,hbuilds⟩ := not_or.mp hw |>.imp_right not_or.mp
      obtain ⟨port,hport⟩ := Option.ne_none_iff_exists'.mp hport
      refine ⟨rfl,port,w.parallelism.getD 2,?_⟩
      rw [start_launched he (Bool.eq_true_of_not_eq_false hbind) hport (Bool.eq_true_of_not_eq_false hbuilds)]

/-- What an event can do: launch an engine where none is stored, stop the stored one, end a task,
or nothing to the engine at all. -/
theorem step_cases {e e' : Process} {ev : Event} (h : step e ev = some e') :
    (e.engine = none ∧ ∃ a port cores, e' = launch a port cores e) ∨
    (∃ r, e.engine = some r ∧ e' = { e with engine := none, running := e.running.erase r.task }) ∨
    (∃ task, e' = { e with running := e.running.erase task }) ∨
    (e'.engine = e.engine ∧ e'.launched = e.launched ∧ e'.running = e.running) := by
  cases ev with
  | start a w =>
    rw [← Option.some.inj h]
    rcases start_cases a w e with hsame | ⟨hnone,port,cores,hnew⟩
    · rw [hsame]
      exact .inr (.inr (.inr ⟨rfl,rfl,rfl⟩))
    · exact .inl ⟨hnone,a,port,cores,hnew⟩
  | stop =>
    rw [← Option.some.inj h,stop]
    cases he : e.engine with
    | none => exact .inr (.inr (.inr ⟨he,rfl,rfl⟩))
    | some r => exact .inr (.inl ⟨r,rfl,rfl⟩)
  | port =>
    rw [← Option.some.inj h]
    exact .inr (.inr (.inr ⟨rfl,rfl,rfl⟩))
  | setMemoryBudgetMb mb =>
    rw [← Option.some.inj h]
    exact .inr (.inr (.inr ⟨rfl,rfl,rfl⟩))
  | serveEnded task =>
    obtain ⟨_,h⟩ := Option.ite_none_right_eq_some.mp h
    exact .inr (.inr (.inl ⟨task,(Option.some.inj h).symm⟩))

theorem tracks_step (e : Process) (ev : Event) (e' : Process) (h : Tracks e) (hstep : step e ev = some e') :
    Tracks e' := by
  rcases step_cases hstep with ⟨hnone,a,port,cores,rfl⟩ | ⟨r,hr,rfl⟩ | ⟨task,rfl⟩ | ⟨hengine,_,hrunning⟩
  · intro k hk
    rcases Finset.mem_insert.mp hk with rfl | hk
    · exact ⟨_,rfl,rfl⟩
    · obtain ⟨r,hr,_⟩ := h k hk
      rw [hnone] at hr
      cases hr
  · -- only the task of the stored engine ran, and the stop waits for it
    intro k hk
    obtain ⟨hne,hk⟩ := Finset.mem_erase.mp hk
    obtain ⟨r',hr',rfl⟩ := h k hk
    rw [hr] at hr'
    cases hr'
    exact absurd rfl hne
  · exact fun k hk => h k (Finset.mem_of_mem_erase hk)
  · rw [Tracks,hengine,hrunning]
    exact h

theorem tracks_run {events : List Event} {e : Process} (h : run step events initial = some e) : Tracks e :=
  run_invariant tracks_step (fun _ hk => absurd hk (Finset.notMem_empty _)) h

/-- An engine for one phone: on the loopback address only, for the main network and one wallet at a time. -/
structure ForPhone (c : Config) : Prop where
  loopback : c.listen.1 = (127,0,0,1)
  mainnet : c.network = "mainnet"
  oneParty : c.enableMultiparty = false
  oneWallet : c.resources.syncWallets = 1

theorem launched_run {events : List Event} {e : Process} (h : run step events initial = some e) :
    ∀ c ∈ e.launched, ForPhone c := by
  refine run_invariant (P := fun e : Process => ∀ c ∈ e.launched, ForPhone c) (fun e ev e' hall hstep => ?_)
    (fun _ hc => absurd hc List.not_mem_nil) h
  rcases step_cases hstep with ⟨_,a,port,cores,rfl⟩ | ⟨r,_,rfl⟩ | ⟨task,rfl⟩ | ⟨_,hlaunched,_⟩
  · intro c hc
    rcases List.mem_append.mp hc with hc | hc
    · exact hall c hc
    · rw [List.mem_singleton.mp hc]
      exact ⟨rfl,rfl,rfl,rfl⟩
  · exact hall
  · exact hall
  · rw [hlaunched]
    exact hall

/-- Every serve task that ended by itself was followed by a stop. -/
def Stopped (events : List Event) : Prop :=
  ∀ front task back, events = front ++ .serveEnded task::back → .stop ∈ back

theorem stopped_concat_stop (events : List Event) : Stopped (events ++ [.stop]) := by
  intro front task back h
  rcases List.eq_nil_or_concat' back with rfl | ⟨init,last,rfl⟩
  · obtain ⟨_,hlast⟩ := List.append_inj' h rfl
    cases hlast
  · rw [← List.cons_append,← List.append_assoc] at h
    obtain ⟨_,hlast⟩ := List.append_inj' h rfl
    rw [← hlast]
    simp

theorem not_stopped_concat (events : List Event) (task : ℕ) : ¬ Stopped (events ++ [.serveEnded task]) := fun h =>
  absurd (h events task [] rfl) (List.not_mem_nil)

/-- Any other event changes nothing about that. -/
theorem stopped_concat (events : List Event) {ev : Event} (hstop : ev ≠ .stop) (hended : ∀ task, ev ≠ .serveEnded task) :
    Stopped (events ++ [ev]) ↔ Stopped events := by
  constructor
  · intro h front task back he
    have hmem := h front task (back ++ [ev]) (by rw [he,List.append_assoc,List.cons_append])
    rcases List.mem_append.mp hmem with hmem | hmem
    · exact hmem
    · exact absurd (List.mem_singleton.mp hmem).symm hstop
  · intro h front task back he
    rcases List.eq_nil_or_concat' back with rfl | ⟨init,last,rfl⟩
    · obtain ⟨_,hlast⟩ := List.append_inj' he rfl
      exact absurd (List.singleton_inj.mp hlast) (hended task)
    · rw [← List.cons_append,← List.append_assoc] at he
      obtain ⟨hinit,_⟩ := List.append_inj' he rfl
      exact List.mem_append_left _ (h front task init hinit)

/-- What one event does to the property: a stop restores it, the end of a serve task breaks it,
and no other event makes a difference. -/
theorem portLive_step {e e' : Process} {ev : Event} (ht : Tracks e) (h : step e ev = some e') :
    (ev = .stop → PortLive e') ∧ ((∃ task, ev = .serveEnded task) → ¬ PortLive e') ∧
      (ev ≠ .stop → (∀ task, ev ≠ .serveEnded task) → (PortLive e' ↔ PortLive e)) := by
  simp only [portLive_iff]
  cases ev with
  | start a w =>
    refine ⟨nofun,nofun,fun _ _ => ?_⟩
    rw [← Option.some.inj h]
    rcases start_cases a w e with hsame | ⟨hnone,port,cores,hnew⟩
    · rw [hsame]
    · rw [hnew]
      exact iff_of_true (.inr ⟨_,rfl,Finset.mem_insert_self _ _⟩) (.inl hnone)
  | stop =>
    refine ⟨fun _ => .inl ?_,nofun,fun hne => absurd rfl hne⟩
    rw [← Option.some.inj h]
    unfold stop
    cases he : e.engine with
    | none => exact he
    | some r => rfl
  | port =>
    refine ⟨nofun,nofun,fun _ _ => ?_⟩
    rw [← Option.some.inj h]
  | setMemoryBudgetMb mb =>
    refine ⟨nofun,nofun,fun _ _ => ?_⟩
    rw [← Option.some.inj h]
    rfl
  | serveEnded task =>
    refine ⟨nofun,fun _ => ?_,fun _ hne => absurd rfl (hne task)⟩
    obtain ⟨hmem,h⟩ := Option.ite_none_right_eq_some.mp h
    obtain ⟨r,hr,rfl⟩ := ht task hmem
    rw [← Option.some.inj h]
    rintro (hnone | ⟨r',hr',hmem'⟩)
    · rw [hr] at hnone
      cases hnone
    · rw [hr] at hr'
      cases hr'
      exact Finset.notMem_erase _ _ hmem'

theorem portLive_iff_stopped {events : List Event} {e : Process} (h : run step events initial = some e) :
    PortLive e ↔ Stopped events := by
  induction events using List.reverseRecOn generalizing e with
  | nil =>
    rw [← Option.some.inj h]
    refine iff_of_true (portLive_iff.mpr (.inl rfl)) ?_
    intro front task back he
    simp at he
  | append_singleton events ev ih =>
    obtain ⟨mid,hmid,hstep⟩ := run_concat_eq_some.mp h
    obtain ⟨hstop,hended,hother⟩ := portLive_step (tracks_run hmid) hstep
    by_cases hs : ev = .stop
    · subst hs
      exact iff_of_true (hstop rfl) (stopped_concat_stop events)
    · by_cases he : ∃ task, ev = .serveEnded task
      · obtain ⟨task,rfl⟩ := he
        exact iff_of_false (hended ⟨task,rfl⟩) (not_stopped_concat events task)
      · have hne : ∀ task, ev ≠ .serveEnded task := fun task h => he ⟨task,h⟩
        rw [hother hs hne,stopped_concat events hs hne]
        exact ih hmid

/-- A reported port is that of a live engine exactly when every serve task that ended by itself was
followed by a stop, and throughout a run exactly when none ends by itself. -/
theorem port_live {events : List Event} {e : Process} (h : run step events initial = some e) :
    (PortLive e ↔ Stopped events) ∧
    ((∀ front back e', events = front ++ back → run step front initial = some e' → PortLive e') ↔
      ∀ task, .serveEnded task ∉ events) := by
  refine ⟨portLive_iff_stopped h,?_⟩
  constructor
  · intro hlive task hmem
    obtain ⟨front,back,rfl⟩ := List.append_of_mem hmem
    rw [List.append_cons] at h
    obtain ⟨mid,hmid,_⟩ := run_append_eq_some.mp h
    have hstopped := (portLive_iff_stopped hmid).mp (hlive _ back mid (List.append_cons _ _ _) hmid)
    exact not_stopped_concat front task hstopped
  · intro hnone front back e' he hrun
    refine (portLive_iff_stopped hrun).mpr ?_
    intro first task rest hfront
    exact absurd (by rw [he,hfront]; simp) (hnone task)

/-- A phone, and a world in which the first start succeeds. -/
def phone : StartArgs := ⟨"node.example:1","/data/wallet",none,none⟩

def loopback : Port := ⟨40001,by decide⟩

def willing : World := ⟨true,some loopback,some 8,true⟩

/-- The serve task ends, for want of its port perhaps: the port is still reported, and a start
hands it out again and launches nothing. -/
theorem port_dead :
    ∃ e, run step [.start phone willing,.serveEnded 0] initial = some e ∧ port e = 40001 ∧ e.running = ∅ ∧
      (start phone willing e).1 = 40001 ∧ (start phone willing e).2 = e ∧ ¬ PortLive e := by
  refine ⟨_,rfl,rfl,by decide,rfl,rfl,?_⟩
  rw [portLive_iff]
  rintro (h | ⟨r,_,h⟩)
  · cases h
  · exact absurd h (by decide +revert)

theorem port_live_phone :
    ∃ e, run step [.start phone willing,.serveEnded 0,.stop,.start phone willing] initial = some e ∧ PortLive e := by
  have hrun : run step [.start phone willing,.serveEnded 0,.stop,.start phone willing] initial =
      some ⟨some ⟨loopback,1⟩,List.replicate 2 (phoneConfig phone loopback 8 0),{1},0⟩ := by
    decide
  refine ⟨_,hrun,(port_live hrun).1.mpr ?_⟩
  have hrestarted := stopped_concat ([.start phone willing,.serveEnded 0] ++ [.stop])
    (show Event.start phone willing ≠ .stop from nofun) nofun
  exact hrestarted.mpr (stopped_concat_stop _)

end ZkasSigner.Engine
