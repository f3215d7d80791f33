import ZkasSigner.Engine.DebugLog
import ZkasSigner.Engine.Threads

/-! Panics in the app and what the log keeps of them. The first start puts a hook in front of the
one that was there, and a lock that a panic has poisoned says so whenever it is taken. -/
namespace ZkasSigner.Engine
open Foundation Foundation.Runs Foundation.Monitor Foundation.Recent

/-- The two shapes a payload is asked for, and any other. -/
inductive Payload where
  | str (s : String)
  | string (s : String)
  | other

/-- Where a panic happened, as file and line, if that is known. -/
structure PanicInfo where
  location : Option (String × ℕ)
  payload : Payload

namespace PanicInfo

def whereText (info : PanicInfo) : String :=
  (info.location.map fun l => l.1 ++ ":" ++ toString l.2).getD "unknown location"

def what (info : PanicInfo) : String :=
  match info.payload with
  | .str s => s
  | .string s => s
  | .other => "non-string panic payload"

end PanicInfo

def panicLine (info : PanicInfo) (now : Option UInt64) : Record where
  level := .error
  target := crateName
  args := "ENGINE PANIC at " ++ info.whereText ++ ": " ++ info.what
  sinceEpoch := now

def poisonLine (now : Option UInt64) : Record where
  level := .error
  target := crateName
  args := "engine lock was poisoned by an earlier panic; recovering it"
  sinceEpoch := now

/-- The standard library's hook, the hook that the app had set, or the engine's in front of another one. -/
inductive Hook where
  | standard
  | app
  | engine (next : Hook)
  deriving DecidableEq

namespace Hook

/-- What a panic makes the hook log, before it reaches the last hook of the chain. -/
def records (info : PanicInfo) (now : Option UInt64) : Hook → List Record
  | engine next => panicLine info now::records info now next
  | _ => []

def last : Hook → Hook
  | engine next => next.last
  | hook => hook

end Hook

/-- The flag of `install_panic_hook`. While its closure runs the closure has the hook that was there, and other
callers wait. -/
inductive Once (Thread : Type*) where
  | incomplete
  | running (t : Thread) (previous : Hook)
  | complete

/-- How far a start has come on its way to the lock: `install_logger` goes in three steps, of which
only the first caller takes the last two, and `install_panic_hook` in two, of which only one caller takes the first. -/
inductive Entry where
  | called
  | swapped
  | boxed
  | logging
  | ready
  deriving DecidableEq

/-- The app with its log. `reports` are the panics that have reached the last hook of the chain, and which one that was. -/
structure Watched (Thread : Type*) where
  threads : Threads Thread
  entry : Thread → Entry
  once : Once Thread
  hook : Hook
  log : Logging
  reports : List (Hook × PanicInfo)

/-- A step of the threads at a time, a step of a start that has not asked for the lock, a panic
behind the lock or anywhere else, a choice of level, or a record of the engine. -/
inductive Moment (Thread : Type*) where
  | step (l : Step Thread) (now : Option UInt64)
  | prepared (t : Thread)
  | panicked (t : Thread) (info : PanicInfo) (now : Option UInt64)
  | elsewhere (info : PanicInfo) (now : Option UInt64)
  | setDebugLogs (on : Bool)
  | record (r : Record)

variable {Thread : Type*}

namespace Moment

/-- What is logged by a step of the threads: by `engine_lock`, by `start` once it has got as far as
the configuration, and by `set_memory_budget_mb`. -/
def noted (s : Threads Thread) (now : Option UInt64) : Step Thread → List Record
  | .locked _ _ => if s.poisoned then [poisonLine now] else []
  | .acted _ .configured => if 0 < s.data.memBudgetMb then [residentLine s.data.memBudgetMb now] else []
  | .outside (.setMemoryBudgetMb mb) => [budgetLine mb now]
  | _ => []

def records (s : Watched Thread) : Moment Thread → List Record
  | .step l now => noted s.threads now l
  | .panicked _ info now => s.hook.records info now
  | .elsewhere info now => s.hook.records info now
  | .record r => [r]
  | _ => []

/-- The panic of a moment. -/
def info : Moment Thread → Option PanicInfo
  | .panicked _ info _ => some info
  | .elsewhere info _ => some info
  | _ => none

def label : Moment Thread → Option (Step Thread)
  | .step l _ => some l
  | .panicked t _ _ => some (.acted t .panicked)
  | _ => none

end Moment

namespace Watched

def idle : Watched Thread := ⟨Engine.idle,fun _ => .called,.incomplete,.app,.initial,[]⟩

/-- The log after the records of a moment. -/
def noting (s : Watched Thread) (records : List Record) : Watched Thread :=
  { s with log := records.foldl Logging.record s.log }

def reporting (s : Watched Thread) (hook : Hook) (info : PanicInfo) : Watched Thread :=
  { s with reports := s.reports ++ [(hook,info)] }

/-- A hook is called with a panic. The engine's logs it and calls the hook that was there. -/
def report (info : PanicInfo) (now : Option UInt64) : Hook → Watched Thread → Watched Thread
  | .engine next, s => report info now next (s.noting [panicLine info now])
  | .app, s => s.reporting .app info
  | .standard, s => s.reporting .standard info

variable [DecidableEq Thread]

def prepare (s : Watched Thread) (t : Thread) : Option (Watched Thread) :=
  match s.entry t with
  | .called =>
    if s.log.loggerSet then some { s with entry := Function.update s.entry t .logging }
    else some { s with log := { s.log with loggerSet := true }, entry := Function.update s.entry t .swapped }
  | .swapped => some { s with log := s.log.setBoxedLogger, entry := Function.update s.entry t .boxed }
  | .boxed => some { s with log := { s.log with maxLevel := .info }, entry := Function.update s.entry t .logging }
  | .logging =>
    match s.once with
    -- `take_hook` leaves the standard hook in its place
    | .incomplete => some { s with once := .running t s.hook, hook := .standard }
    | .running u previous =>
      if u = t then
        some { s with once := .complete, hook := .engine previous, entry := Function.update s.entry t .ready }
      else none
    | .complete => some { s with entry := Function.update s.entry t .ready }
  | .ready => none

/-- A start asks for the lock when its preparations are done, and a panic is a moment of its own. -/
def admitsStep (s : Watched Thread) : Step Thread → Bool
  | .locked t (.start _) => s.entry t = .ready
  | .acted _ .panicked => false
  | _ => true

def entering (s : Watched Thread) : Step Thread → Thread → Entry
  | .called t (.start _) => Function.update s.entry t .called
  | _ => s.entry

def step (s : Watched Thread) : Moment Thread → Option (Watched Thread)
  | .step l now =>
    if s.admitsStep l then
      (code.step s.threads l).map fun threads =>
        { s.noting (Moment.noted s.threads now l) with threads := threads, entry := s.entering l }
    else none
  | .prepared t =>
    match s.threads.phase t with
    | .waiting (.start _) => s.prepare t
    | _ => none
  | .panicked t info now =>
    (code.step s.threads (.acted t .panicked)).map fun threads => { report info now s.hook s with threads := threads }
  | .elsewhere info now => some (report info now s.hook s)
  | .setDebugLogs on => some { s with log := s.log.setDebugLogs on }
  | .record r => some (s.noting [r])

end Watched

/-! ### The log -/

def Logging.takes (l : Logging) (r : Record) : Bool := l.boxedLogger && decide (r.level.rank ≤ l.maxLevel.rank)

theorem Logging.record_eq (l : Logging) (r : Record) :
    l.record r = if l.takes r then { l with ring := push LOG_RING_CAP l.ring (line r) } else l := by
  rw [record,takes]
  by_cases hlevel : r.level.rank ≤ l.maxLevel.rank
  · cases hboxed : l.boxedLogger <;> simp [log,enabled,hlevel,hboxed]
  · simp [hlevel]

/-- Records change nothing but the ring. -/
theorem Logging.foldl_record (l : Logging) (records : List Record) :
    records.foldl Logging.record l =
      { l with ring := ((records.filter l.takes).map line).foldl (push LOG_RING_CAP) l.ring } := by
  induction records generalizing l with
  | nil => rfl
  | cons r records ih =>
    rw [List.foldl_cons,ih,record_eq]
    cases htakes : l.takes r with
    | true =>
      have hsame : Logging.takes { l with ring := push LOG_RING_CAP l.ring (line r) } = l.takes := rfl
      rw [if_pos rfl,hsame,List.filter_cons_of_pos htakes]
      rfl
    | false =>
      rw [if_neg nofun,List.filter_cons_of_neg (by rw [htakes]; nofun)]

/-- The ring's logger is there and takes errors. -/
structure Installed (l : Logging) : Prop where
  boxedLogger : l.boxedLogger = true
  maxLevel : 1 ≤ l.maxLevel.rank

theorem Installed.takes {l : Logging} (h : Installed l) {r : Record} (hr : r.level = .error) : l.takes r = true := by
  rw [Logging.takes,h.boxedLogger,hr]
  exact decide_eq_true h.maxLevel

theorem Installed.record {l : Logging} (h : Installed l) (r : Record) : Installed (l.record r) := by
  rw [Logging.record_eq]
  split_ifs
  · exact ⟨h.boxedLogger,h.maxLevel⟩
  · exact h

/-- `install_logger`, when no other thread is at it, is what its three steps do. -/
theorem prepare_alone [DecidableEq Thread] {s : Watched Thread} {t : Thread} {a : StartArgs} (hentry : s.entry t = .called)
    (hphase : s.threads.phase t = .waiting (.start a)) :
    ∃ n s', run Watched.step (List.replicate n (.prepared t)) s = some s' ∧ s'.entry t = .logging ∧
      s'.log = s.log.installLogger := by
  cases hset : s.log.loggerSet with
  | true =>
    refine ⟨1,{ s with entry := Function.update s.entry t .logging },?_,Function.update_self ..,?_⟩
    · simp [Watched.step,hphase,Watched.prepare,hentry,hset]
    · simp [Logging.installLogger,hset]
  | false =>
    refine ⟨3,{ s with log := s.log.installLogger, entry := Function.update s.entry t .logging },?_,
      Function.update_self ..,rfl⟩
    simp [List.replicate,Watched.step,hphase,Watched.prepare,hentry,hset,Logging.installLogger]

/-! ### Steps -/

/-- A panic is logged as the chain of hooks has it, and the last of them reports it. -/
theorem Watched.report_eq (info : PanicInfo) (now : Option UInt64) (hook : Hook) (s : Watched Thread) :
    report info now hook s = (s.noting (hook.records info now)).reporting hook.last info := by
  induction hook generalizing s with
  | standard => rfl
  | app => rfl
  | engine next ih => exact ih _

section
variable [DecidableEq Thread] {s s' : Watched Thread} {mo : Moment Thread}

theorem Watched.entering_ready {l : Step Thread} {t : Thread} (h : s.entering l t = .ready) : s.entry t = .ready := by
  cases l with
  | called u c =>
    cases c with
    | start a =>
      by_cases htu : t = u
      · subst htu
        rw [entering,Function.update_self] at h
        cases h
      · rwa [entering,Function.update_of_ne htu] at h
    | _ => exact h
  | _ => exact h

/-- What a moment can do: it logs its records, or a start goes on with its preparations, or the level
is chosen anew. -/
theorem Watched.step_cases (h : s.step mo = some s') :
    (s'.log = (mo.records s).foldl Logging.record s.log ∧ s'.hook = s.hook ∧ s'.once = s.once ∧
      s'.reports = s.reports ++ mo.info.toList.map (Prod.mk s.hook.last) ∧ (∀ t, s'.entry t = .ready → s.entry t = .ready) ∧
      (mo.label = none ∧ s'.threads = s.threads ∨ ∃ l, mo.label = some l ∧ code.step s.threads l = some s'.threads)) ∨
    (∃ t, mo = .prepared t ∧ s.prepare t = some s') ∨
    (∃ on, mo = .setDebugLogs on ∧ s' = { s with log := s.log.setDebugLogs on }) := by
  cases mo with
  | step l now =>
    obtain ⟨_,h⟩ := Option.ite_none_right_eq_some.mp h
    obtain ⟨threads,hthreads,rfl⟩ := Option.map_eq_some_iff.mp h
    exact .inl ⟨rfl,rfl,rfl,(List.append_nil _).symm,fun t => entering_ready,.inr ⟨l,rfl,hthreads⟩⟩
  | prepared t =>
    simp only [step] at h
    split at h
    · exact .inr (.inl ⟨t,rfl,h⟩)
    · cases h
  | panicked t info now =>
    obtain ⟨threads,hthreads,rfl⟩ := Option.map_eq_some_iff.mp h
    rw [report_eq]
    exact .inl ⟨rfl,rfl,rfl,rfl,fun _ => id,.inr ⟨_,rfl,hthreads⟩⟩
  | elsewhere info now =>
    cases h
    rw [report_eq]
    exact .inl ⟨rfl,rfl,rfl,rfl,fun _ => id,.inl ⟨rfl,rfl⟩⟩
  | setDebugLogs on =>
    cases h
    exact .inr (.inr ⟨on,rfl,rfl⟩)
  | record r =>
    cases h
    exact .inl ⟨rfl,rfl,rfl,(List.append_nil _).symm,fun _ => id,.inl ⟨rfl,rfl⟩⟩

/-- What the preparations can do: to the log no more than install the logger, and to the hook no more
than take it, once, and put the engine's in front of it. A start comes to the lock with the hook in its place. -/
theorem Watched.prepare_cases {t : Thread} (h : s.prepare t = some s') :
    (∃ log entry, s' = { s with log := log, entry := Function.update s.entry t entry } ∧ log.ring = s.log.ring ∧
      (Installed s.log → Installed log) ∧ (entry = .ready → s.once = .complete)) ∨
    (s.entry t = .logging ∧ s.once = .incomplete ∧ s' = { s with once := .running t s.hook, hook := .standard }) ∨
    ∃ previous, s.once = .running t previous ∧
      s' = { s with once := .complete, hook := .engine previous, entry := Function.update s.entry t .ready } := by
  simp only [prepare] at h
  split at h
  · split at h
    · cases h
      exact .inl ⟨_,_,rfl,rfl,id,nofun⟩
    · cases h
      exact .inl ⟨_,_,rfl,rfl,fun hi => ⟨hi.boxedLogger,hi.maxLevel⟩,nofun⟩
  · cases h
    refine .inl ⟨_,_,rfl,?_,fun hi => ?_,nofun⟩
    · simp only [Logging.setBoxedLogger]
      split_ifs <;> rfl
    · simp only [Logging.setBoxedLogger,if_pos hi.boxedLogger]
      exact hi
  · cases h
    exact .inl ⟨_,_,rfl,rfl,fun hi => ⟨hi.boxedLogger,Nat.le_add_left 1 2⟩,nofun⟩
  · next hentry =>
    split at h
    · next honce =>
      cases h
      exact .inr (.inl ⟨hentry,honce,rfl⟩)
    · next u previous honce =>
      obtain ⟨rfl,h⟩ := Option.ite_none_right_eq_some.mp h
      cases h
      exact .inr (.inr ⟨previous,honce,rfl⟩)
    · next honce =>
      cases h
      exact .inl ⟨s.log,_,rfl,rfl,id,fun _ => honce⟩
  · cases h

/-- The lines, the reports and the threads are not touched by the preparations. -/
theorem Watched.prepare_frame {t : Thread} (h : s.prepare t = some s') :
    s'.log.ring = s.log.ring ∧ (Installed s.log → Installed s'.log) ∧ s'.reports = s.reports ∧ s'.threads = s.threads := by
  rcases prepare_cases h with ⟨log,entry,rfl,hring,hinstalled,_⟩ | ⟨_,_,rfl⟩ | ⟨previous,_,rfl⟩
  · exact ⟨hring,hinstalled,rfl,rfl⟩
  · exact ⟨rfl,id,rfl,rfl⟩
  · exact ⟨rfl,id,rfl,rfl⟩

theorem Watched.prepare_hook {t : Thread} (h : s.prepare t = some s') :
    s'.hook = s.hook ∧ s'.once = s.once ∨
      s.once = .incomplete ∧ s'.once = .running t s.hook ∧ s'.hook = .standard ∨
      ∃ previous, s.once = .running t previous ∧ s'.once = .complete ∧ s'.hook = .engine previous := by
  rcases prepare_cases h with ⟨log,entry,rfl,_⟩ | ⟨_,hincomplete,rfl⟩ | ⟨previous,hrunning,rfl⟩
  · exact .inl ⟨rfl,rfl⟩
  · exact .inr (.inl ⟨hincomplete,rfl,rfl⟩)
  · exact .inr (.inr ⟨previous,hrunning,rfl,rfl⟩)

theorem Watched.prepare_entry {t u : Thread} (h : s.prepare t = some s') (hne : u ≠ t) : s'.entry u = s.entry u := by
  rcases prepare_cases h with ⟨log,entry,rfl,_⟩ | ⟨_,_,rfl⟩ | ⟨previous,_,rfl⟩
  · exact Function.update_of_ne hne ..
  · rfl
  · exact Function.update_of_ne hne ..

theorem Watched.prepare_ready {t : Thread} (h : s.prepare t = some s') (ht : s'.entry t = .ready) : s'.once = .complete := by
  rcases prepare_cases h with ⟨log,entry,rfl,_,_,honce⟩ | ⟨hentry,_,rfl⟩ | ⟨previous,_,rfl⟩
  · exact honce ((Function.update_self ..).symm.trans ht)
  · cases hentry.symm.trans ht
  · rfl

theorem Watched.step_ring (h : s.step mo = some s') :
    s'.log.ring = (((mo.records s).filter s.log.takes).map line).foldl (push LOG_RING_CAP) s.log.ring := by
  rcases step_cases h with ⟨hlog,_⟩ | ⟨t,rfl,hprepare⟩ | ⟨on,rfl,rfl⟩
  · rw [hlog,Logging.foldl_record]
  · exact (prepare_frame hprepare).1
  · rfl

theorem Watched.step_installed (hi : Installed s.log) (h : s.step mo = some s') : Installed s'.log := by
  rcases step_cases h with ⟨hlog,_⟩ | ⟨t,rfl,hprepare⟩ | ⟨on,rfl,rfl⟩
  · rw [hlog,Logging.foldl_record]
    exact ⟨hi.boxedLogger,hi.maxLevel⟩
  · exact (prepare_frame hprepare).2.1 hi
  · refine ⟨hi.boxedLogger,?_⟩
    cases on
    · exact Nat.le_add_left 1 2
    · exact Nat.le_add_left 1 3

theorem Watched.step_reports (h : s.step mo = some s') :
    s'.reports = s.reports ++ mo.info.toList.map (Prod.mk s.hook.last) := by
  rcases step_cases h with ⟨_,_,_,hreports,_,_⟩ | ⟨t,rfl,hprepare⟩ | ⟨on,rfl,rfl⟩
  · exact hreports
  · exact (prepare_frame hprepare).2.2.1.trans (List.append_nil _).symm
  · exact (List.append_nil _).symm

theorem Watched.step_threads (h : s.step mo = some s') :
    mo.label = none ∧ s'.threads = s.threads ∨ ∃ l, mo.label = some l ∧ code.step s.threads l = some s'.threads := by
  rcases step_cases h with ⟨_,_,_,_,_,hthreads⟩ | ⟨t,rfl,hprepare⟩ | ⟨on,rfl,rfl⟩
  · exact hthreads
  · exact .inl ⟨rfl,(prepare_frame hprepare).2.2.2⟩
  · exact .inl ⟨rfl,rfl⟩

end

/-- The hook as the installation leaves it. -/
def Once.hook : Once Thread → Hook
  | incomplete => .app
  | running _ _ => .standard
  | complete => .engine .app

/-- One layer of hook, whatever the number of starts. -/
structure Hooked (s : Watched Thread) : Prop where
  hook : s.hook = s.once.hook
  taken : ∀ t previous, s.once = .running t previous → previous = .app

section
variable [DecidableEq Thread] {s s' : Watched Thread}

theorem hooked_step (s : Watched Thread) (mo : Moment Thread) (s' : Watched Thread) (hh : Hooked s)
    (h : s.step mo = some s') : Hooked s' := by
  have hkept : s'.hook = s.hook → s'.once = s.once → Hooked s' := fun hhook honce =>
    ⟨by rw [hhook,honce]; exact hh.hook,by rw [honce]; exact hh.taken⟩
  rcases Watched.step_cases h with ⟨_,hhook,honce,_⟩ | ⟨t,rfl,hprepare⟩ | ⟨on,rfl,rfl⟩
  · exact hkept hhook honce
  · rcases Watched.prepare_hook hprepare with ⟨hhook,honce⟩ | ⟨hnot,honce,hhook⟩ | ⟨previous,hrunning,honce,hhook⟩
    · exact hkept hhook honce
    · have hprevious : s.hook = .app := by
        rw [hh.hook,hnot]
        rfl
      refine ⟨by rw [hhook,honce]; rfl,fun u previous hu => ?_⟩
      rw [honce] at hu
      cases hu
      exact hprevious
    · refine ⟨?_,fun u previous hu => ?_⟩
      · rw [hhook,honce,hh.taken t previous hrunning]
        rfl
      · rw [honce] at hu
        cases hu
  · exact hkept rfl rfl

/-- The installation goes on between the panics. -/
theorem Watched.step_once_cases {mo : Moment Thread} (h : s.step mo = some s') :
    s'.once = s.once ∨ mo.info = none ∧ (s.once = .incomplete ∧ (∃ t previous, s'.once = .running t previous) ∨
      (∃ t previous, s.once = .running t previous) ∧ s'.once = .complete) := by
  rcases step_cases h with ⟨_,_,honce,_⟩ | ⟨t,rfl,hprepare⟩ | ⟨on,rfl,rfl⟩
  · exact .inl honce
  · rcases prepare_hook hprepare with ⟨_,honce⟩ | ⟨hnot,honce,_⟩ | ⟨previous,hrunning,honce,_⟩
    · exact .inl honce
    · exact .inr ⟨rfl,.inl ⟨hnot,t,_,honce⟩⟩
    · exact .inr ⟨rfl,.inr ⟨⟨t,previous,hrunning⟩,honce⟩⟩
  · exact .inl rfl

theorem Watched.step_panic (hh : Hooked s) {mo : Moment Thread} (h : s.step mo = some s') {info : PanicInfo}
    (hinfo : mo.info = some info) : s'.reports = s.reports ++ [(s.once.hook.last,info)] := by
  rw [step_reports h,hinfo,hh.hook]
  rfl

/-- The panics of a run, and who reported them: those of before the installation and of after it the hook that
was there, and those of between the standard one. -/
structure Reported (moments : List (Moment Thread)) (s : Watched Thread) (before between after : List PanicInfo) : Prop where
  panics : moments.filterMap Moment.info = before ++ (between ++ after)
  reports : s.reports = before.map (Prod.mk .app) ++ (between.map (Prod.mk .standard) ++ after.map (Prod.mk .app))
  incomplete : s.once = .incomplete → between = [] ∧ after = []
  running : ∀ t previous, s.once = .running t previous → after = []

theorem Reported.panic {moments : List (Moment Thread)} {before between after : List PanicInfo}
    (hr : Reported moments s before between after) (hh : Hooked s) {mo : Moment Thread} (h : s.step mo = some s')
    {info : PanicInfo} (hinfo : mo.info = some info) (honce : s'.once = s.once) :
    ∃ before' between' after', Reported (moments ++ [mo]) s' before' between' after' := by
  have hpanics := filterMap_concat_some moments hinfo
  have hreports := Watched.step_panic hh h hinfo
  rw [hr.panics] at hpanics
  rw [hr.reports] at hreports
  cases hs : s.once with
  | incomplete =>
    obtain ⟨rfl,rfl⟩ := hr.incomplete hs
    rw [hs] at hreports honce
    refine ⟨before ++ [info],[],[],by simpa using hpanics,?_,fun _ => ⟨rfl,rfl⟩,fun _ _ _ => rfl⟩
    simpa [Once.hook,Hook.last] using hreports
  | running t previous =>
    obtain rfl := hr.running t previous hs
    rw [hs] at hreports honce
    refine ⟨before,between ++ [info],[],by simpa using hpanics,?_,fun hnot => ?_,fun _ _ _ => rfl⟩
    · simpa [Once.hook,Hook.last] using hreports
    · cases honce.symm.trans hnot
  | complete =>
    rw [hs] at hreports honce
    refine ⟨before,between,after ++ [info],by simpa using hpanics,?_,fun hnot => ?_,fun _ _ hnot => ?_⟩
    · simpa [Once.hook,Hook.last] using hreports
    · cases honce.symm.trans hnot
    · cases honce.symm.trans hnot

theorem Reported.step {moments : List (Moment Thread)} {before between after : List PanicInfo}
    (hr : Reported moments s before between after) (hh : Hooked s) {mo : Moment Thread} (h : s.step mo = some s') :
    ∃ before' between' after', Reported (moments ++ [mo]) s' before' between' after' := by
  cases hinfo : mo.info with
  | some info =>
    rcases Watched.step_once_cases h with honce | ⟨hnone,_⟩
    · exact hr.panic hh h hinfo honce
    · cases hnone.symm.trans hinfo
  | none =>
    have hpanics := (filterMap_concat_none moments hinfo).trans hr.panics
    have hreports : s'.reports = s.reports := by
      rw [Watched.step_reports h,hinfo]
      exact List.append_nil _
    refine ⟨before,between,after,hpanics,hreports.trans hr.reports,fun hnot => ?_,fun t previous hrunning => ?_⟩
    · rcases Watched.step_once_cases h with honce | ⟨_,⟨_,_,_,honce⟩ | ⟨_,honce⟩⟩
      · exact hr.incomplete (honce.symm.trans hnot)
      · cases honce.symm.trans hnot
      · cases honce.symm.trans hnot
    · rcases Watched.step_once_cases h with honce | ⟨_,⟨hincomplete,_⟩ | ⟨_,honce⟩⟩
      · exact hr.running t previous (honce.symm.trans hrunning)
      · exact (hr.incomplete hincomplete).2
      · cases honce.symm.trans hrunning

theorem hooked_run {moments : List (Moment Thread)} (h : run Watched.step moments .idle = some s) : Hooked s :=
  run_invariant hooked_step ⟨rfl,fun _ _ hrunning => by cases hrunning⟩ h

theorem reported_run {moments : List (Moment Thread)} (h : run Watched.step moments .idle = some s) :
    ∃ before between after, Reported moments s before between after := by
  induction moments using List.reverseRecOn generalizing s with
  | nil =>
    rw [← Option.some.inj h]
    exact ⟨[],[],[],rfl,rfl,fun _ => ⟨rfl,rfl⟩,fun _ _ _ => rfl⟩
  | append_singleton moments mo ih =>
    obtain ⟨mid,hmid,hstep⟩ := run_concat_eq_some.mp h
    obtain ⟨before,between,after,hr⟩ := ih hmid
    exact hr.step (hooked_run hmid) hstep

/-- The log does not touch the threads: they run as they do without it. -/
theorem threads_run {moments : List (Moment Thread)} (h : run Watched.step moments s = some s') :
    run code.step (moments.filterMap Moment.label) s.threads = some s'.threads := by
  induction moments generalizing s with
  | nil =>
    rw [← Option.some.inj h]
    rfl
  | cons mo moments ih =>
    rw [run_cons] at h
    obtain ⟨mid,hmid,h⟩ := Option.bind_eq_some_iff.mp h
    have htail := ih h
    rcases Watched.step_threads hmid with ⟨hlabel,hsame⟩ | ⟨l,hlabel,hstep⟩
    · rw [List.filterMap_cons_none hlabel,← hsame]
      exact htail
    · rw [List.filterMap_cons_some hlabel,run_cons,hstep]
      exact htail

/-- The lines a run writes, in order. -/
def written (s : Watched Thread) : List (Moment Thread) → List String
  | [] => []
  | mo::rest => ((mo.records s).filter s.log.takes).map line ++ ((s.step mo).map fun s' => written s' rest).getD []

theorem written_cons {mo : Moment Thread} (rest : List (Moment Thread)) (h : s.step mo = some s') :
    written s (mo::rest) = ((mo.records s).filter s.log.takes).map line ++ written s' rest := by
  rw [written,h]
  rfl

theorem written_append {front : List (Moment Thread)} (back : List (Moment Thread))
    (h : run Watched.step front s = some s') : written s (front ++ back) = written s front ++ written s' back := by
  induction front generalizing s with
  | nil =>
    rw [Option.some.inj h]
    rfl
  | cons mo front ih =>
    rw [run_cons] at h
    obtain ⟨mid,hmid,h⟩ := Option.bind_eq_some_iff.mp h
    rw [List.cons_append,written_cons _ hmid,written_cons _ hmid,ih h,List.append_assoc]

theorem ring_run {moments : List (Moment Thread)} (h : run Watched.step moments s = some s') (before : List String)
    (hs : s.log.ring = before.rtake LOG_RING_CAP) : s'.log.ring = (before ++ written s moments).rtake LOG_RING_CAP := by
  induction moments generalizing s before with
  | nil =>
    rw [← Option.some.inj h,written,List.append_nil]
    exact hs
  | cons mo moments ih =>
    rw [run_cons] at h
    obtain ⟨mid,hmid,h⟩ := Option.bind_eq_some_iff.mp h
    have hring := Watched.step_ring hmid
    rw [hs,foldl_push_rtake (by decide)] at hring
    rw [written_cons moments hmid,← List.append_assoc]
    exact ih h _ hring

/-! ### A poisoned lock -/

def Moment.acquires : Moment Thread → Bool
  | .step (.locked _ _) _ => true
  | _ => false

def Moment.speaks (mo : Moment Thread) : Bool := mo.acquires || mo.info.isSome

omit [DecidableEq Thread] in
/-- Where the logger and the hook are installed, every panic is one line, at any level. -/
theorem records_panic (hh : Hooked s) (honce : s.once = .complete) {mo : Moment Thread} {info : PanicInfo}
    (hinfo : mo.info = some info) : ∃ now, mo.records s = [panicLine info now] := by
  have hhook : s.hook = .engine .app := by
    rw [hh.hook,honce]
    rfl
  cases mo with
  | panicked t info' now =>
    cases hinfo
    exact ⟨now,congrArg (Hook.records info now) hhook⟩
  | elsewhere info' now =>
    cases hinfo
    exact ⟨now,congrArg (Hook.records info now) hhook⟩
  | _ => cases hinfo

omit [DecidableEq Thread] in
theorem records_acquires (hpoisoned : s.threads.poisoned = true) {mo : Moment Thread} (h : mo.acquires = true) :
    ∃ now, mo.records s = [poisonLine now] := by
  cases mo with
  | step l now =>
    cases l with
    | locked t c => exact ⟨now,if_pos hpoisoned⟩
    | _ => cases h
  | _ => cases h

omit [DecidableEq Thread] in
/-- With the lock poisoned, whoever takes it writes a line, and so does every panic. -/
theorem records_speaks (hh : Hooked s) (honce : s.once = .complete) (hpoisoned : s.threads.poisoned = true)
    (hi : Installed s.log) {mo : Moment Thread} (h : mo.speaks = true) :
    (((mo.records s).filter s.log.takes).map line).length = 1 := by
  have herror : ∀ {r : Record}, mo.records s = [r] → r.level = .error →
      (((mo.records s).filter s.log.takes).map line).length = 1 := fun hrecords hlevel => by
    rw [hrecords,List.filter_cons_of_pos (hi.takes hlevel)]
    rfl
  rcases Bool.or_eq_true_iff.mp h with hacquires | hinfo
  · obtain ⟨now,hrecords⟩ := records_acquires hpoisoned hacquires
    exact herror hrecords rfl
  · obtain ⟨info,hinfo⟩ := Option.isSome_iff_exists.mp hinfo
    obtain ⟨now,hrecords⟩ := records_panic hh honce hinfo
    exact herror hrecords rfl

theorem Watched.step_once {mo : Moment Thread} (honce : s.once = .complete) (h : s.step mo = some s') : s'.once = .complete := by
  rcases step_cases h with ⟨_,_,hsame,_⟩ | ⟨t,rfl,hprepare⟩ | ⟨on,rfl,rfl⟩
  · exact hsame.trans honce
  · rcases prepare_hook hprepare with ⟨_,hsame⟩ | ⟨hnot,_⟩ | ⟨_,_,hset,_⟩
    · exact hsame.trans honce
    · cases hnot.symm.trans honce
    · exact hset
  · exact honce

theorem Watched.step_poisoned {mo : Moment Thread} (hpoisoned : s.threads.poisoned = true) (h : s.step mo = some s') :
    s'.threads.poisoned = true := by
  rcases step_threads h with ⟨_,hsame⟩ | ⟨l,_,hstep⟩
  · rw [hsame]
    exact hpoisoned
  · exact Code.step_poisoned hpoisoned hstep

theorem Watched.step_ready {mo : Moment Thread} (hr : ∀ t, s.entry t = .ready → s.once = .complete)
    (h : s.step mo = some s') (t : Thread) (ht : s'.entry t = .ready) : s'.once = .complete := by
  rcases step_cases h with ⟨_,_,hsame,_,hentry,_⟩ | ⟨u,rfl,hprepare⟩ | ⟨on,rfl,rfl⟩
  · exact hsame.trans (hr t (hentry t ht))
  · by_cases hut : t = u
    · subst hut
      exact prepare_ready hprepare ht
    · have honce := hr t ((prepare_entry hprepare hut).symm.trans ht)
      exact step_once honce h
  · exact hr t ht

/-- A poisoned lock stays so, with the logger and the hook installed. -/
structure Sore (s : Watched Thread) : Prop where
  hooked : Hooked s
  once : s.once = .complete
  poisoned : s.threads.poisoned = true
  installed : Installed s.log

theorem Sore.step {mo : Moment Thread} (hs : Sore s) (h : s.step mo = some s') : Sore s' :=
  ⟨hooked_step s mo s' hs.hooked h,Watched.step_once hs.once h,Watched.step_poisoned hs.poisoned h,
    Watched.step_installed hs.installed h⟩

/-- Whoever takes the lock adds the line about it to the log. -/
theorem Sore.acquires {mo : Moment Thread} (hs : Sore s) (hacquires : mo.acquires = true) (h : s.step mo = some s') :
    ∃ now, s'.log.ring = push LOG_RING_CAP s.log.ring (line (poisonLine now)) := by
  obtain ⟨now,hrecords⟩ := records_acquires hs.poisoned hacquires
  refine ⟨now,?_⟩
  rw [Watched.step_ring h,hrecords,List.filter_cons_of_pos (hs.installed.takes rfl)]
  rfl

theorem speaks_run {moments : List (Moment Thread)} (hs : Sore s) (h : run Watched.step moments s = some s') :
    moments.countP Moment.speaks ≤ (written s moments).length := by
  induction moments generalizing s with
  | nil => exact Nat.zero_le _
  | cons mo moments ih =>
    rw [run_cons] at h
    obtain ⟨mid,hmid,h⟩ := Option.bind_eq_some_iff.mp h
    have htail := ih (hs.step hmid) h
    rw [written_cons moments hmid,List.length_append,List.countP_cons]
    split_ifs with hspeaks
    · rw [records_speaks hs.hooked hs.once hs.poisoned hs.installed hspeaks]
      omega
    · omega

theorem once_run {moments : List (Moment Thread)} (h : run Watched.step moments .idle = some s)
    {t : Thread} {a : StartArgs} {now : Option UInt64} (hmem : .step (.locked t (.start a)) now ∈ moments) :
    s.once = .complete := by
  obtain ⟨front,back,rfl⟩ := List.append_of_mem hmem
  obtain ⟨x,y,hfront,hlock,hback⟩ := run_through_eq_some.mp h
  have hidle : ∀ t : Thread, (Watched.idle.entry t) = .ready → (Watched.idle : Watched Thread).once = .complete := fun _ he => by
    cases he
  have hready := run_invariant (P := fun s : Watched Thread => ∀ t, s.entry t = .ready → s.once = .complete)
    (fun _ _ _ hr hstep => Watched.step_ready hr hstep) hidle hfront
  have hentry : x.entry t = .ready := of_decide_eq_true (Option.ite_none_right_eq_some.mp hlock).1
  have honce := Watched.step_once (hready t hentry) hlock
  exact run_invariant (P := fun s : Watched Thread => s.once = .complete) (fun _ _ _ ho hstep => Watched.step_once ho hstep)
    honce hback

/-- However many starts there are, the engine's hook stands once before the one that was there. Every panic
reaches that one, in order and once, but for those of other threads that fall between its taking and the
setting of the engine's: these reach the standard one. With the hook and the logger in place every panic is
one line of the log, at any level. -/
theorem panics_reported {moments : List (Moment Thread)} (h : run Watched.step moments .idle = some s) :
    (∃ before between after, moments.filterMap Moment.info = before ++ (between ++ after) ∧
      s.reports = before.map (Prod.mk .app) ++
        (between.map (Prod.mk .standard) ++ after.map (Prod.mk .app))) ∧
    (∀ mo s' info, s.step mo = some s' → mo.info = some info →
      s'.reports = s.reports ++ [(s.once.hook.last,info)]) ∧
    s.hook = s.once.hook ∧
    (∀ t a now, .step (.locked t (.start a)) now ∈ moments → s.once = .complete) ∧
    (s.once = .complete → Installed s.log → ∀ mo s' info, s.step mo = some s' → mo.info = some info →
      ∃ now, s'.log.ring = push LOG_RING_CAP s.log.ring (line (panicLine info now))) := by
  have hh := hooked_run h
  refine ⟨?_,fun mo s' info hstep hinfo => Watched.step_panic hh hstep hinfo,hh.hook,fun t a now => once_run h,
    fun honce hi mo s' info hstep hinfo => ?_⟩
  · obtain ⟨before,between,after,hr⟩ := reported_run h
    exact ⟨before,between,after,hr.panics,hr.reports⟩
  · obtain ⟨now,hrecords⟩ := records_panic hh honce hinfo
    refine ⟨now,?_⟩
    rw [Watched.step_ring hstep,hrecords,List.filter_cons_of_pos (hi.takes rfl)]
    rfl

theorem poisoned_run {moments : List (Moment Thread)} (h : run Watched.step moments s = some s') {t : Thread}
    {now : Option UInt64} (hmem : .step (.left t .panicked) now ∈ moments) : s'.threads.poisoned = true := by
  obtain ⟨front,back,rfl⟩ := List.append_of_mem hmem
  obtain ⟨x,y,_,hleft,hback⟩ := run_through_eq_some.mp h
  have hpoisoned : y.threads.poisoned = true := by
    rcases Watched.step_threads hleft with ⟨hnone,_⟩ | ⟨l,hlabel,hstep⟩
    · cases hnone
    · cases hlabel
      obtain ⟨_,_,_,hy⟩ := Code.step_left hstep
      rw [hy]
      exact Bool.or_eq_true_iff.mpr (.inr (decide_eq_true rfl))
  exact run_invariant (P := fun s : Watched Thread => s.threads.poisoned = true)
    (fun _ _ _ hp hstep => Watched.step_poisoned hp hstep) hpoisoned hback

/-- After a panic behind the lock, with the hook and the logger in place, whoever takes the lock writes a line
about it, whatever was called before. The log holds the last lines only, so that with as many calls as it has
room for nothing from before is left in it, and the line of that panic is gone. -/
theorem panic_line_evicted {front back : List (Moment Thread)} (hfront : run Watched.step front .idle = some s)
    (hback : run Watched.step back s = some s') (honce : s.once = .complete) (hlog : Installed s.log)
    (hpanic : ∃ t now, .step (.left t .panicked) now ∈ front) :
    s'.log.ring = (written .idle front ++ written s back).rtake LOG_RING_CAP ∧
    (∀ earlier mo later, back = earlier ++ mo::later → mo.acquires = true →
      ∃ x y now, run Watched.step earlier s = some x ∧ x.step mo = some y ∧
        y.log.ring = push LOG_RING_CAP x.log.ring (line (poisonLine now))) ∧
    back.countP Moment.speaks ≤ (written s back).length ∧
    (LOG_RING_CAP ≤ back.countP Moment.acquires → s'.log.ring = (written s back).rtake LOG_RING_CAP) := by
  obtain ⟨t,now,hmem⟩ := hpanic
  have hsore : Sore s := ⟨hooked_run hfront,honce,poisoned_run hfront hmem,hlog⟩
  have hring := ring_run hback _ (ring_run hfront [] rfl)
  rw [List.nil_append] at hring
  have hspeaks := speaks_run hsore hback
  refine ⟨hring,fun earlier mo later hsplit hacquires => ?_,hspeaks,fun hcap => ?_⟩
  · rw [hsplit] at hback
    obtain ⟨x,y,hearlier,hmo,_⟩ := run_through_eq_some.mp hback
    have hx : Sore x := run_invariant (fun _ _ _ hs hstep => hs.step hstep) hsore hearlier
    obtain ⟨now,hline⟩ := hx.acquires hacquires hmo
    exact ⟨x,y,now,hearlier,hmo,hline⟩
  · have hcount : back.countP Moment.acquires ≤ back.countP Moment.speaks :=
      List.countP_mono_left fun mo _ h => Bool.or_eq_true_iff.mpr (.inl h)
    rw [hring,rtake_append_of_le (hcap.trans (hcount.trans hspeaks))]

end

def shaken : PanicInfo := ⟨some ("lib.rs",341),.str "poll"⟩

def stray : PanicInfo := ⟨none,.other⟩

/-- A start that is given no port, and a poll that panics. -/
def panicking : List (Moment ℕ) :=
  [.step (.called 0 (.start phone)) none,.prepared 0,.prepared 0,.prepared 0,.prepared 0,.prepared 0,
    .step (.locked 0 (.start phone)) none,.step (.acted 0 .checked) none,.step (.acted 0 .refused) none,
    .step (.left 0 (.returned (some 0))) none,
    .step (.called 1 .port) none,.step (.locked 1 .port) none,.panicked 1 shaken none,.step (.left 1 .panicked) none]

def poll : List (Moment ℕ) :=
  [.step (.called 1 .port) none,.step (.locked 1 .port) none,.step (.acted 1 .read) none,
    .step (.left 1 (.returned (some 0))) none]

/-- Nobody is behind the lock, the polling thread is idle and no engine is stored. -/
structure Vacant (s : Watched ℕ) : Prop where
  sore : Sore s
  holder : s.threads.holder = none
  idle : s.threads.phase 1 = .idle
  data : s.threads.data = initial

theorem poll_run {s : Watched ℕ} (h : Vacant s) :
    ∃ s', run Watched.step poll s = some s' ∧ Vacant s' ∧ written s poll = [line (poisonLine none)] := by
  obtain ⟨⟨data,holder,poisoned,phase⟩,entry,once,hook,log,reports⟩ := s
  obtain ⟨⟨hhook,honce,hpoisoned,hlog⟩,hholder,hidle,hdata⟩ := h
  dsimp only at hholder hidle hdata honce hpoisoned hlog
  subst hholder hdata honce hpoisoned
  have htakes : log.takes (poisonLine none) = true := hlog.takes rfl
  refine ⟨⟨⟨initial,none,true,Function.update phase 1 .idle⟩,entry,.complete,hook,log.record (poisonLine none),reports⟩,
    ?_,⟨⟨⟨hhook.hook,hhook.taken⟩,rfl,rfl,hlog.record _⟩,rfl,?_,rfl⟩,?_⟩
  · simp [poll,Watched.step,Watched.admitsStep,Watched.entering,Watched.noting,Moment.noted,Code.step,hidle,code,
      Place.enter,Place.act,Place.exit,port,initial]
  · change Function.update phase 1 .idle 1 = .idle
    exact Function.update_self ..
  · simp [poll,written,Watched.step,Watched.admitsStep,Watched.entering,Watched.noting,Moment.noted,Moment.records,
      Code.step,hidle,code,Place.enter,Place.act,Place.exit,port,initial,htakes]

theorem polls_run (n : ℕ) {s : Watched ℕ} (h : Vacant s) :
    ∃ s', run Watched.step (List.replicate n poll).flatten s = some s' ∧
      written s (List.replicate n poll).flatten = List.replicate n (line (poisonLine none)) := by
  induction n generalizing s with
  | zero => exact ⟨s,rfl,rfl⟩
  | succ n ih =>
    obtain ⟨mid,hmid,hvacant,hwritten⟩ := poll_run h
    obtain ⟨s',hs',hrest⟩ := ih hvacant
    refine ⟨s',?_,?_⟩
    · rw [List.replicate_succ,List.flatten_cons]
      exact run_append_eq_some.mpr ⟨mid,hmid,hs'⟩
    · rw [List.replicate_succ,List.flatten_cons,written_append _ hmid,hwritten,hrest]
      rfl

/-- The panic is the one line of the log. -/
theorem panicking_run : ∃ s, run Watched.step panicking .idle = some s ∧ Vacant s ∧
    s.log.logs = "0 [ERROR] zkas_walletd_mobile: ENGINE PANIC at lib.rs:341: poll" := by
  refine ⟨_,rfl,⟨⟨⟨rfl,fun _ _ hrunning => by cases hrunning⟩,rfl,rfl,rfl,?_⟩,rfl,rfl,rfl⟩,?_⟩
  · decide
  · decide

/-- With a panic elsewhere while the first start has the old hook in its hands. -/
def interrupted : List (Moment ℕ) := panicking.take 5 ++ .elsewhere stray none::panicking.drop 5

theorem panics_reported_panicking : ∃ s, run Watched.step interrupted .idle = some s ∧
    s.reports = [(.standard,stray),(.app,shaken)] ∧ s.hook = .engine .app ∧
    ∀ s', s.step (.elsewhere stray none) = some s' →
      ∃ now, s'.log.ring = push LOG_RING_CAP s.log.ring (line (panicLine stray now)) := by
  obtain ⟨s,hs,hreports,hlog⟩ : ∃ s, run Watched.step interrupted .idle = some s ∧
      s.reports = [(.standard,stray),(.app,shaken)] ∧ Installed s.log := ⟨_,rfl,rfl,rfl,by decide⟩
  obtain ⟨_,_,hhook,hstart,hlines⟩ := panics_reported hs
  have honce : s.once = .complete := hstart 0 phone none (by simp [interrupted,panicking])
  refine ⟨s,hs,hreports,?_,fun s' hstep => hlines honce hlog _ s' stray hstep rfl⟩
  rw [hhook,honce]
  rfl

/-- After 3000 polls nothing else is in the log. -/
theorem panic_line_evicted_polled :
    ∃ s s', run Watched.step panicking .idle = some s ∧
      run Watched.step (List.replicate LOG_RING_CAP poll).flatten s = some s' ∧
      s.log.logs = "0 [ERROR] zkas_walletd_mobile: ENGINE PANIC at lib.rs:341: poll" ∧
      ∀ x ∈ s'.log.ring, x = line (poisonLine none) := by
  obtain ⟨s,hs,hvacant,hlogs⟩ := panicking_run
  obtain ⟨s',hs',hwritten⟩ := polls_run LOG_RING_CAP hvacant
  refine ⟨s,s',hs,hs',hlogs,fun x hx => ?_⟩
  have hcount : LOG_RING_CAP ≤ (List.replicate LOG_RING_CAP poll).flatten.countP Moment.acquires := by
    rw [List.countP_flatten,List.map_replicate,List.sum_replicate_nat]
    exact Nat.le_refl _
  rw [(panic_line_evicted hs hs' hvacant.sore.once hvacant.sore.installed ⟨1,none,by simp [panicking]⟩).2.2.2 hcount,
    hwritten] at hx
  exact List.eq_of_mem_replicate (List.mem_of_mem_drop hx)

end ZkasSigner.Engine
