import ZkasSigner.Engine.Threads
import ZkasSigner.Foundation.Serial

/-! The threads of the app, told again one call after the other. A call that answers does all at
once what it does when it is left alone; a panic may lose the answer of a call or its engine. -/
namespace ZkasSigner.Engine
open Foundation Foundation.Runs Foundation.Monitor

/-- What a call may leave behind whose answer nobody gets. -/
def Lost (e e' : Process) : Prop := ∃ c answer, Alone c e answer e'

def breaks : Action → Bool
  | .panicked => true
  | .dropped _ => true
  | _ => false

/-- A start that has found no engine and has not spawned. -/
structure Starting (c : Call) (e : Process) (a : StartArgs) : Prop where
  call : c = .start a
  settled : Settled e
  vacant : e.engine = none

/-- How far a call has come whose turn finds the process `e`. What changed without the lock since a
start read the memory budget, or since a call came to its answer, comes after the turn. -/
def During (c : Call) (e : Process) (later : List Outside) : Place → Process → Prop
  | .checking a, d => c = .start a ∧ Settled e ∧ later = [] ∧ d = e
  | .binding a, d => Starting c e a ∧ later = [] ∧ d = e
  | .addressing a, d => Starting c e a ∧ later = [] ∧ d = e
  | .building a _, d => Starting c e a ∧ later = [] ∧ d = e
  | .configuring a _ _, d => Starting c e a ∧ later = [] ∧ d = e
  | .spawning port cfg, d =>
    ∃ a cores, Starting c e a ∧ cfg = phoneConfig a port cores e.memBudgetMb ∧ run outside later e = some d
  | .storing port task, d =>
    ∃ a cores, Starting c e a ∧ d.engine = none ∧
      run outside later (launch a port cores e) = some { d with engine := some ⟨port,task⟩ }
  | .taking, d => c = .stop ∧ later = [] ∧ d = e
  | .signalling task, d => c = .stop ∧ later = [] ∧ ∃ r, e.engine = some r ∧ r.task = task ∧ d = { e with engine := none }
  | .shutting task, d => c = .stop ∧ later = [] ∧ ∃ r, e.engine = some r ∧ r.task = task ∧ d = { e with engine := none }
  | .reading, d => c = .port ∧ later = [] ∧ d = e
  | .returning answer, d => ∃ e', Alone c e answer e' ∧ run outside later e' = some d
  | .unwinding none, d => run outside later e = some d
  | .unwinding (some task), d => later = [] ∧ ∃ r, e.engine = some r ∧ r.task = task ∧ d = { e with engine := none }

section
variable {e e' : Process} {o : Outside}

/-- The engine handle is not touched without the lock, and does not matter there. -/
theorem outside_engine (h : outside e o = some e') (r : Option Running) :
    outside { e with engine := r } o = some { e' with engine := r } := by
  cases o with
  | serveEnded task =>
    obtain ⟨hmem,h⟩ := Option.ite_none_right_eq_some.mp h
    cases h
    exact if_pos hmem
  | setMemoryBudgetMb mb =>
    cases h
    rfl

/-- Nothing that happens without the lock ends a task that is yet to be spawned. -/
theorem outside_spawn (hs : Settled e) (h : outside e o = some e') (cfg : Config) (r : Option Running) :
    outside { e with engine := r, launched := e.launched ++ [cfg], running := insert e.launched.length e.running } o =
      some { e' with engine := r, launched := e'.launched ++ [cfg], running := insert e'.launched.length e'.running } := by
  cases o with
  | serveEnded task =>
    obtain ⟨hmem,h⟩ := Option.ite_none_right_eq_some.mp h
    cases h
    have hne : e.launched.length ≠ task := (hs.launched task hmem).ne'
    rw [outside,step,if_pos (Finset.mem_insert_of_mem hmem),Finset.erase_insert_of_ne hne]
  | setMemoryBudgetMb mb =>
    cases h
    rfl

end

theorem Starting.outside {c : Call} {e e' : Process} {a : StartArgs} {o : Outside} (h : Starting c e a)
    (ho : Engine.outside e o = some e') : Starting c e' a :=
  ⟨h.call,h.settled.outside ho,(outside_cases ho).1.trans h.vacant⟩

/-- A task that ends while its engine is being stopped may as well have ended before. -/
theorem taken_outside {e d d' : Process} {o : Outside} {task : ℕ}
    (h : ∃ r, e.engine = some r ∧ r.task = task ∧ d = { e with engine := none }) (ho : outside d o = some d') :
    ∃ e', outside e o = some e' ∧ ∃ r, e'.engine = some r ∧ r.task = task ∧ d' = { e' with engine := none } := by
  obtain ⟨r,hr,htask,rfl⟩ := h
  have hstored := outside_engine ho (some r)
  rw [← hr] at hstored
  refine ⟨_,hstored,r,hr,htask,?_⟩
  have hnone := (outside_cases ho).1
  rw [← show d'.engine = none from hnone]

theorem outsides_spawn {e e' : Process} {later : List Outside} (hs : Settled e) (h : run outside later e = some e')
    (cfg : Config) (r : Option Running) :
    run outside later { e with engine := r, launched := e.launched ++ [cfg], running := insert e.launched.length e.running } =
      some { e' with engine := r, launched := e'.launched ++ [cfg], running := insert e'.launched.length e'.running } := by
  induction later generalizing e with
  | nil =>
    rw [← Option.some.inj h]
    rfl
  | cons o later ih =>
    rw [run_cons] at h ⊢
    obtain ⟨next,hnext,h⟩ := Option.bind_eq_some_iff.mp h
    rw [outside_spawn hs hnext]
    exact ih (hs.outside hnext) h

theorem outsides_length {e e' : Process} {later : List Outside} (h : run outside later e = some e') :
    e'.engine = e.engine ∧ e'.launched = e.launched := by
  refine run_invariant (P := fun d : Process => d.engine = e.engine ∧ d.launched = e.launched) ?_ ⟨rfl,rfl⟩ h
  intro d o d' hd ho
  obtain ⟨hengine,hlaunched,_⟩ := outside_cases ho
  exact ⟨hengine.trans hd.1,hlaunched.trans hd.2⟩

theorem during_enter (c : Call) {e : Process} (h : Settled e) : During c e [] (Place.enter c) e := by
  cases c with
  | start a => exact ⟨rfl,h,rfl,rfl⟩
  | stop => exact ⟨rfl,rfl,rfl⟩
  | port => exact ⟨rfl,rfl,rfl⟩

section
variable {a : StartArgs} {e : Process}

theorem alone_stored {r : Running} (h : e.engine = some r) : Alone (.start a) e (some r.port.val) e := by
  have hstart := Alone.start a willing e
  rwa [start_stored h] at hstart

theorem alone_refused (h : e.engine = none) : Alone (.start a) e (some 0) e := by
  have hstart := Alone.start a ⟨false,none,none,false⟩ e
  rwa [start_refused h (.inl rfl)] at hstart

theorem alone_launched (h : e.engine = none) (port : Port) (cores : ℕ) :
    Alone (.start a) e (some port.val) (launch a port cores e) := by
  have hstart := Alone.start a ⟨true,some port,some cores,true⟩ e
  rwa [start_launched h rfl rfl rfl] at hstart

theorem alone_vacant (h : e.engine = none) : Alone .stop e none e := by
  have hstop := Alone.stop e
  rwa [stop,h] at hstop

theorem alone_shut {r : Running} (h : e.engine = some r) :
    Alone .stop e none { e with engine := none, running := e.running.erase r.task } := by
  have hstop := Alone.stop e
  rwa [stop,h] at hstop

end

section
variable {c : Call} {e : Process} {later : List Outside} {p : Place} {d : Process}

/-- A panic drops the runtime in scope, so that a start that had spawned is lost as a whole and its
engine is stopped after it. -/
theorem during_panicked (h : During c e later p d) (hp : ∀ r, p ≠ .unwinding r) :
    ∃ e' e'', (e' = e ∨ Lost e e') ∧ run outside later e' = some e'' ∧ During c e'' [] (.unwinding p.runtime) d := by
  cases p with
  | checking a =>
    obtain ⟨_,_,rfl,rfl⟩ := h
    exact ⟨d,d,.inl rfl,rfl,rfl⟩
  | binding a =>
    obtain ⟨_,rfl,rfl⟩ := h
    exact ⟨d,d,.inl rfl,rfl,rfl⟩
  | addressing a =>
    obtain ⟨_,rfl,rfl⟩ := h
    exact ⟨d,d,.inl rfl,rfl,rfl⟩
  | building a port =>
    obtain ⟨_,rfl,rfl⟩ := h
    exact ⟨d,d,.inl rfl,rfl,rfl⟩
  | configuring a port cores =>
    obtain ⟨_,rfl,rfl⟩ := h
    exact ⟨d,d,.inl rfl,rfl,rfl⟩
  | spawning port cfg =>
    obtain ⟨_,_,_,_,hlater⟩ := h
    exact ⟨e,d,.inl rfl,hlater,rfl⟩
  | storing port task =>
    obtain ⟨a,cores,hstarting,hvacant,hlater⟩ := h
    refine ⟨_,_,.inr ⟨_,_,alone_launched (a := a) hstarting.vacant port cores⟩,hlater,rfl,_,rfl,rfl,?_⟩
    rw [← hvacant]
  | taking =>
    obtain ⟨_,rfl,rfl⟩ := h
    exact ⟨d,d,.inl rfl,rfl,rfl⟩
  | signalling task =>
    obtain ⟨_,rfl,r,hr,htask,hd⟩ := h
    exact ⟨e,e,.inl rfl,rfl,rfl,r,hr,htask,hd⟩
  | shutting task =>
    obtain ⟨_,rfl,r,hr,htask,hd⟩ := h
    exact ⟨e,e,.inl rfl,rfl,rfl,r,hr,htask,hd⟩
  | reading =>
    obtain ⟨_,rfl,rfl⟩ := h
    exact ⟨d,d,.inl rfl,rfl,rfl⟩
  | returning answer =>
    obtain ⟨e',halone,hlater⟩ := h
    exact ⟨e',d,.inr ⟨c,answer,halone⟩,hlater,rfl⟩
  | unwinding r => exact absurd rfl (hp r)

theorem during_act {a : Action} {p' : Place} {d' : Process} (h : During c e later p d)
    (ha : p.act d a = some (p',d')) :
    During c e later p' d' ∨ (breaks a ∧ ∃ e' e'', (e' = e ∨ Lost e e') ∧ run outside later e' = some e'' ∧
      During c e'' [] p' d') := by
  revert h ha
  fun_cases Place.act p d a <;> intro h ha <;> cases ha
  case case1 a r hr =>
    obtain ⟨rfl,_,rfl,rfl⟩ := h
    exact .inl ⟨d,alone_stored hr,rfl⟩
  case case2 a hnone =>
    obtain ⟨rfl,hs,rfl,rfl⟩ := h
    exact .inl ⟨⟨rfl,hs,hnone⟩,rfl,rfl⟩
  case case3 => exact .inl h
  case case4 a =>
    obtain ⟨⟨rfl,_,hnone⟩,rfl,rfl⟩ := h
    exact .inl ⟨d,alone_refused hnone,rfl⟩
  case case5 => exact .inl h
  case case6 a =>
    obtain ⟨⟨rfl,_,hnone⟩,rfl,rfl⟩ := h
    exact .inl ⟨d,alone_refused hnone,rfl⟩
  case case7 => exact .inl h
  case case8 a port =>
    obtain ⟨⟨rfl,_,hnone⟩,rfl,rfl⟩ := h
    exact .inl ⟨d,alone_refused hnone,rfl⟩
  case case9 a port cores =>
    obtain ⟨hstarting,rfl,rfl⟩ := h
    exact .inl ⟨a,cores,hstarting,rfl,rfl⟩
  case case10 port cfg =>
    -- the engine that is spawned now is launched before all that came later
    obtain ⟨a,cores,hstarting,rfl,hlater⟩ := h
    have hengine := (outsides_length hlater).1.trans hstarting.vacant
    refine .inl ⟨a,cores,hstarting,hengine,?_⟩
    rw [launch,outsides_spawn hstarting.settled hlater,(outsides_length hlater).2]
  case case12 port task =>
    obtain ⟨a,cores,⟨rfl,_,hnone⟩,_,hlater⟩ := h
    exact .inl ⟨_,alone_launched hnone port cores,hlater⟩
  case case13 r hr =>
    obtain ⟨rfl,rfl,rfl⟩ := h
    exact .inl ⟨rfl,rfl,r,hr,rfl,rfl⟩
  case case16 hnone =>
    obtain ⟨rfl,rfl,rfl⟩ := h
    exact .inl ⟨d,alone_vacant hnone,rfl⟩
  case case18 => exact .inl h
  case case19 task =>
    obtain ⟨rfl,rfl,r,hr,rfl,rfl⟩ := h
    exact .inl ⟨_,alone_shut hr,rfl⟩
  case case21 =>
    obtain ⟨rfl,rfl,rfl⟩ := h
    exact .inl ⟨d,.port d,rfl⟩
  case case22 =>
    obtain ⟨rfl,r,hr,rfl,rfl⟩ := h
    exact .inr ⟨rfl,_,_,.inr ⟨.stop,none,alone_shut hr⟩,rfl,rfl⟩
  case case25 hne => exact .inr ⟨rfl,during_panicked h hne⟩

theorem during_outside {o : Outside} {d' : Process} (h : During c e later p d) (ho : outside d o = some d') :
    (later = [] ∧ ∃ e', outside e o = some e' ∧ During c e' [] p d') ∨ During c e (later ++ [o]) p d' := by
  have hlast : ∀ {e₁ : Process}, run outside later e₁ = some d → run outside (later ++ [o]) e₁ = some d' := fun hlater =>
    run_concat_eq_some.mpr ⟨d,hlater,ho⟩
  cases p with
  | checking a =>
    obtain ⟨rfl,hs,rfl,rfl⟩ := h
    exact .inl ⟨rfl,d',ho,rfl,hs.outside ho,rfl,rfl⟩
  | binding a =>
    obtain ⟨hstarting,rfl,rfl⟩ := h
    exact .inl ⟨rfl,d',ho,hstarting.outside ho,rfl,rfl⟩
  | addressing a =>
    obtain ⟨hstarting,rfl,rfl⟩ := h
    exact .inl ⟨rfl,d',ho,hstarting.outside ho,rfl,rfl⟩
  | building a port =>
    obtain ⟨hstarting,rfl,rfl⟩ := h
    exact .inl ⟨rfl,d',ho,hstarting.outside ho,rfl,rfl⟩
  | configuring a port cores =>
    obtain ⟨hstarting,rfl,rfl⟩ := h
    exact .inl ⟨rfl,d',ho,hstarting.outside ho,rfl,rfl⟩
  | spawning port cfg =>
    obtain ⟨a,cores,hstarting,hcfg,hlater⟩ := h
    exact .inr ⟨a,cores,hstarting,hcfg,hlast hlater⟩
  | storing port task =>
    obtain ⟨a,cores,hstarting,hvacant,hlater⟩ := h
    refine .inr ⟨a,cores,hstarting,?_,run_concat_eq_some.mpr ⟨_,hlater,outside_engine ho _⟩⟩
    rw [(outside_cases ho).1]
    exact hvacant
  | taking =>
    obtain ⟨rfl,rfl,rfl⟩ := h
    exact .inl ⟨rfl,d',ho,rfl,rfl,rfl⟩
  | signalling task =>
    obtain ⟨rfl,rfl,htaken⟩ := h
    obtain ⟨e',he',htaken'⟩ := taken_outside htaken ho
    exact .inl ⟨rfl,e',he',rfl,rfl,htaken'⟩
  | shutting task =>
    obtain ⟨rfl,rfl,htaken⟩ := h
    obtain ⟨e',he',htaken'⟩ := taken_outside htaken ho
    exact .inl ⟨rfl,e',he',rfl,rfl,htaken'⟩
  | reading =>
    obtain ⟨rfl,rfl,rfl⟩ := h
    exact .inl ⟨rfl,d',ho,rfl,rfl,rfl⟩
  | returning answer =>
    obtain ⟨e',halone,hlater⟩ := h
    exact .inr ⟨e',halone,hlast hlater⟩
  | unwinding r =>
    cases r with
    | none => exact .inr (hlast h)
    | some task =>
      obtain ⟨rfl,htaken⟩ := h
      obtain ⟨e',he',htaken'⟩ := taken_outside htaken ho
      exact .inl ⟨rfl,e',he',rfl,htaken'⟩

end

/-- Whatever the threads do, they do it as if each call had the engine to itself. -/
theorem serializes : Serializes code Settled Alone Lost breaks During where
  enter c _ h := during_enter c h
  act _ _ _ _ _ _ _ _ h ha := during_act h ha
  outside _ _ _ _ _ _ _ h ho := during_outside h ho
  returned c e later p d answer h hx := by
    cases p with
    | returning answer' =>
      cases hx
      exact h
    | unwinding r => cases r <;> cases hx
    | _ => cases hx
  panicked c e later p d h hx := by
    cases p with
    | unwinding r =>
      cases r with
      | none => exact h
      | some task => cases hx
    | returning => cases hx
    | _ => cases hx

def Outside.event : Outside → Event
  | .serveEnded task => .serveEnded task
  | .setMemoryBudgetMb mb => .setMemoryBudgetMb mb

def Event.outside? : Event → Option Outside
  | .serveEnded task => some (.serveEnded task)
  | .setMemoryBudgetMb mb => some (.setMemoryBudgetMb mb)
  | _ => none

@[simp] theorem Outside.event_outside (o : Outside) : o.event.outside? = some o := by
  cases o <;> rfl

theorem outside_event (e : Process) (o : Outside) : outside e o = step e o.event := by
  cases o <;> rfl

/-- A call that is alone is one event of the process. -/
theorem Alone.event {c : Call} {e e' : Process} {answer : Option UInt16} (h : Alone c e answer e') :
    ∃ ev : Event, step e ev = some e' ∧ ev.outside? = none := by
  cases h with
  | start a w => exact ⟨.start a w,rfl,rfl⟩
  | stop => exact ⟨.stop,rfl,rfl⟩
  | port => exact ⟨.port,rfl,rfl⟩

section
variable {Thread : Type*}

/-- The turns are a run of the process of one thread, with the same changes without the lock. -/
theorem events_of_serial {turns : List (Turn Thread Call (Option UInt16) Outside)} {e : Process}
    (h : Serial code Alone Lost initial turns e) :
    ∃ events, run step events initial = some e ∧ events.filterMap Event.outside? = turns.filterMap Turn.outside? := by
  induction h with
  | nil => exact ⟨[],rfl,rfl⟩
  | answered _ halone ih =>
    obtain ⟨events,hrun,houts⟩ := ih
    obtain ⟨ev,hev,hinside⟩ := halone.event
    refine ⟨events ++ [ev],run_concat_eq_some.mpr ⟨_,hrun,hev⟩,?_⟩
    rw [filterMap_concat_none _ hinside,filterMap_concat_none _ rfl,houts]
  | lost _ hlost ih =>
    obtain ⟨events,hrun,houts⟩ := ih
    obtain ⟨c,answer,halone⟩ := hlost
    obtain ⟨ev,hev,hinside⟩ := halone.event
    refine ⟨events ++ [ev],run_concat_eq_some.mpr ⟨_,hrun,hev⟩,?_⟩
    rw [filterMap_concat_none _ hinside,filterMap_concat_none _ rfl,houts]
  | @outside turns _ _ o _ ho ih =>
    obtain ⟨events,hrun,houts⟩ := ih
    refine ⟨events ++ [o.event],run_concat_eq_some.mpr ⟨_,hrun,(outside_event _ o).symm.trans ho⟩,?_⟩
    rw [filterMap_concat_some _ o.event_outside,houts]
    exact (filterMap_concat_some (f := Turn.outside?) turns rfl).symm

/-- One call after the other: every answer that was given, in the order it was given, every change
without the lock, and no more lost calls than panics and dropped runtimes. -/
structure Linear (labels : List (Step Thread)) (e : Process) (turns : List (Turn Thread Call (Option UInt16) Outside)) :
    Prop where
  serial : Serial code Alone Lost initial turns e
  replies : turns.filterMap Turn.reply = answered labels
  outsides : turns.filterMap Turn.outside? = labels.filterMap Label.outside?
  lost : turns.countP Turn.isLost ≤ labels.countP (Label.breaks breaks)
  events : ∃ events, run step events initial = some e ∧ events.filterMap Event.outside? = labels.filterMap Label.outside?

theorem linear_of_told {labels : List (Step Thread)} {s : Threads Thread}
    {turns : List (Turn Thread Call (Option UInt16) Outside)} {e : Process}
    (h : Told code Alone Lost breaks During initial labels s turns e) (hfree : s.holder = none) :
    Linear labels s.data turns := by
  obtain ⟨rfl,houts⟩ := h.free hfree
  obtain ⟨events,hrun,hevents⟩ := events_of_serial h.serial
  exact ⟨h.serial,h.replies,houts,h.lost,events,hrun,hevents.trans houts⟩

variable [DecidableEq Thread]

/-- The engine is linearizable: whenever nobody holds the lock, the process is what whole calls make
of it one after the other. Their order is that of the answers, so that a call that was answered
before another one began has its turn before it. -/
theorem linearizable {front back : List (Step Thread)} {s s' : Threads Thread} (hfront : run code.step front idle = some s)
    (hback : run code.step back s = some s') (hs : s.holder = none) (hs' : s'.holder = none) :
    ∃ turns more, Linear front s.data turns ∧ Linear (front ++ back) s'.data (turns ++ more) := by
  obtain ⟨turns,e,htold⟩ := told_start.run sound serializes (kept_start settled_initial) hfront
  obtain ⟨more,e',htold'⟩ := htold.run sound serializes (kept_run hfront) hback
  exact ⟨turns,more,linear_of_told htold hs,linear_of_told htold' hs'⟩

end

/-- The serve task ends while a stop holds its runtime, the stop panics, and the engine is started again. -/
def overtaken : List (Step ℕ) :=
  [.called 1 .stop,.locked 1 .stop,.called 0 (.start phone),.acted 1 (.took 0),.outside (.serveEnded 0),
    .acted 1 .panicked,.acted 1 (.dropped 0),.left 1 .panicked] ++ launched 0 1

theorem linearizable_overtaken :
    ∃ s s' : Threads ℕ, run code.step (.called 0 (.start phone)::launched 0 0) idle = some s ∧
      run code.step overtaken s = some s' ∧
      ∃ turns more, Linear (.called 0 (.start phone)::launched 0 0) s.data turns ∧
        Linear (.called 0 (.start phone)::launched 0 0 ++ overtaken) s'.data (turns ++ more) := by
  have hruns : ((run code.step (.called 0 (.start phone)::launched 0 0) (idle : Threads ℕ)).any fun s =>
      s.holder.isNone && (run code.step overtaken s).any fun s' => s'.holder.isNone) = true := by
    decide
  obtain ⟨s,hs,hboth⟩ := (Option.any_eq_true _ _).mp hruns
  obtain ⟨hfree,hback⟩ := Bool.and_eq_true_iff.mp hboth
  obtain ⟨s',hs',hfree'⟩ := (Option.any_eq_true _ _).mp hback
  exact ⟨s,s',hs,hs',linearizable hs hs' (Option.isNone_iff_eq_none.mp hfree) (Option.isNone_iff_eq_none.mp hfree')⟩

end ZkasSigner.Engine
