import ZkasSigner.Engine.Embedded
import ZkasSigner.Foundation.Recent

/-! The debug log of the phone app. A process has one level and one logger, which the first start
installs, and a ring of the last lines. -/
namespace ZkasSigner.Engine
open Foundation Foundation.Runs Foundation.Recent

inductive Level where
  | error
  | warn
  | info
  | debug
  | trace
  deriving DecidableEq, Repr

inductive LevelFilter where
  | off
  | error
  | warn
  | info
  | debug
  | trace
  deriving DecidableEq, Repr

def Level.rank : Level → ℕ
  | .error => 1
  | .warn => 2
  | .info => 3
  | .debug => 4
  | .trace => 5

def LevelFilter.rank : LevelFilter → ℕ
  | .off => 0
  | .error => 1
  | .warn => 2
  | .info => 3
  | .debug => 4
  | .trace => 5

def Level.text : Level → String
  | .error => "ERROR"
  | .warn => "WARN"
  | .info => "INFO"
  | .debug => "DEBUG"
  | .trace => "TRACE"

/-- A record, with the seconds since the epoch at which it is logged, if the clock is past it. -/
structure Record where
  level : Level
  target : String
  args : String
  sinceEpoch : Option UInt64
  deriving DecidableEq

def line (r : Record) : String :=
  toString (r.sinceEpoch.getD 0) ++ " [" ++ r.level.text ++ "] " ++ r.target ++ ": " ++ r.args

def LOG_RING_CAP : ℕ := 3000

/-- The flag of `install_logger`, the two globals of the `log` crate (whether its logger is the
ring's and the level), and the ring. -/
structure Logging where
  loggerSet : Bool
  boxedLogger : Bool
  maxLevel : LevelFilter
  ring : List String
  deriving DecidableEq

namespace Logging

def initial : Logging := ⟨false,false,.off,[]⟩

def enabled (l : Logging) (level : Level) : Bool := decide (level.rank ≤ l.maxLevel.rank)

/-- `RingLogger::log`. -/
def log (l : Logging) (r : Record) : Logging :=
  if !l.enabled r.level then l
  else { l with ring := push LOG_RING_CAP l.ring (line r) }

/-- The macros of the `log` crate: the level first, then the logger, if there is one. -/
def record (l : Logging) (r : Record) : Logging :=
  if r.level.rank ≤ l.maxLevel.rank then
    if l.boxedLogger then l.log r else l
  else l

def setBoxedLogger (l : Logging) : Logging := if l.boxedLogger then l else { l with boxedLogger := true }

def installLogger (l : Logging) : Logging :=
  if l.loggerSet then l
  else { setBoxedLogger { l with loggerSet := true } with maxLevel := .info }

def setDebugLogs (l : Logging) (on : Bool) : Logging := { l with maxLevel := if on then .debug else .info }

def logs (l : Logging) : String := "\n".intercalate l.ring

end Logging

/-- What the log sees of the app. -/
inductive LogEvent where
  | setDebugLogs (on : Bool)
  | start
  | stop
  | record (r : Record)
  deriving DecidableEq

def Logging.step (l : Logging) : LogEvent → Logging
  | .setDebugLogs on => l.setDebugLogs on
  | .start => l.installLogger
  | .stop => l
  | .record r => l.record r

def logging (events : List LogEvent) : Logging := events.foldl Logging.step .initial

/-! ### What was asked for -/

def LogEvent.chosen : LogEvent → Option LevelFilter
  | .setDebugLogs on => some (if on then .debug else .info)
  | _ => none

/-- The most recent choice. -/
def choice (events : List LogEvent) : LevelFilter := ((events.filterMap LogEvent.chosen).getLast?).getD .info

/-- The record an event is, with what came before it. -/
def LogEvent.recorded (front : List LogEvent) : LogEvent → List (List LogEvent × Record)
  | .record r => [(front,r)]
  | _ => []

def recordsFrom (front : List LogEvent) : List LogEvent → List (List LogEvent × Record)
  | [] => []
  | ev::back => ev.recorded front ++ recordsFrom (front ++ [ev]) back

/-- The logger is installed, and the level in force admits the record. -/
def admits (level : List LogEvent → LevelFilter) (x : List LogEvent × Record) : Bool :=
  decide (.start ∈ x.1) && decide (x.2.level.rank ≤ (level x.1).rank)

def admitted (level : List LogEvent → LevelFilter) (events : List LogEvent) : List (List LogEvent × Record) :=
  (recordsFrom [] events).filter (admits level)

/-- The records the log was asked to show. -/
def asked (events : List LogEvent) : List Record := (admitted choice events).map Prod.snd

/-- The log shows the last of what it was asked to show, and a start leaves the choice in force. -/
structure Shows (events : List LogEvent) (l : Logging) : Prop where
  ring : l.ring = ((asked events).rtake LOG_RING_CAP).map line
  logs : l.logs = "\n".intercalate (((asked events).rtake LOG_RING_CAP).map line)
  level : .start ∈ events → l.maxLevel = choice events

/-- The last choice before the first start was for debug lines, and none was made since. -/
def Overridden (events : List LogEvent) : Prop :=
  ∃ before since, events = before ++ .start::since ∧ .start ∉ before ∧ choice before = .debug ∧
    ∀ on, .setDebugLogs on ∉ since

/-! ### What is in force -/

def inForce (events : List LogEvent) : LevelFilter := choice (events.dropWhile fun ev => ev ≠ .start)

theorem choice_append (front back : List LogEvent) :
    choice (front ++ back) = ((back.filterMap LogEvent.chosen).getLast?).getD (choice front) := by
  rw [choice,List.filterMap_append,List.getLast?_append]
  cases (back.filterMap LogEvent.chosen).getLast? <;> rfl

theorem choice_concat (events : List LogEvent) (ev : LogEvent) :
    choice (events ++ [ev]) = ev.chosen.getD (choice events) := by
  rw [choice_append]
  cases ev <;> rfl

theorem choice_cases (events : List LogEvent) : choice events = .info ∨ choice events = .debug := by
  induction events using List.reverseRecOn with
  | nil => exact .inl rfl
  | append_singleton events ev ih =>
    rw [choice_concat]
    cases ev with
    | setDebugLogs on => cases on <;> simp [LogEvent.chosen]
    | _ => exact ih

theorem since_of_split {before since : List LogEvent} (h : .start ∉ before) :
    (before ++ .start::since).dropWhile (fun ev => ev ≠ .start) = .start::since := by
  rw [List.dropWhile_append_of_pos]
  · rfl
  · intro ev hev
    have hne : ev ≠ .start := by
      rintro rfl
      exact h hev
    simpa using hne

/-- The first start splits a history in one way. -/
theorem split_unique {before since before' since' : List LogEvent} (h : .start ∉ before) (h' : .start ∉ before')
    (he : before ++ .start::since = before' ++ .start::since') : before = before' ∧ since = since' := by
  have hsince : (before ++ .start::since).dropWhile (fun ev => ev ≠ .start) = .start::since := since_of_split h
  rw [he,since_of_split h'] at hsince
  cases hsince
  exact ⟨List.append_cancel_right he,rfl⟩

theorem inForce_concat {events : List LogEvent} (h : .start ∈ events) (ev : LogEvent) :
    inForce (events ++ [ev]) = ev.chosen.getD (inForce events) := by
  obtain ⟨before,since,rfl,hbefore⟩ := List.eq_append_cons_of_mem h
  rw [inForce,inForce,List.append_assoc,List.cons_append,since_of_split hbefore,since_of_split hbefore,
    ← List.cons_append,choice_concat]

theorem inForce_started {events : List LogEvent} (h : .start ∉ events) : inForce (events ++ [.start]) = .info := by
  rw [inForce,since_of_split h]
  rfl

theorem chosen_nil {events : List LogEvent} : events.filterMap LogEvent.chosen = [] ↔ ∀ on, .setDebugLogs on ∉ events := by
  rw [List.filterMap_eq_nil_iff]
  constructor
  · intro h on hmem
    cases h _ hmem
  · intro h ev hmem
    cases ev with
    | setDebugLogs on => exact absurd hmem (h on)
    | _ => rfl

/-- What is in force is the choice, but for a choice that the first start has overridden. -/
theorem inForce_cases {events : List LogEvent} (h : .start ∈ events) :
    (Overridden events ∧ choice events = .debug ∧ inForce events = .info) ∨
      (¬ Overridden events ∧ inForce events = choice events) := by
  obtain ⟨before,since,rfl,hbefore⟩ := List.eq_append_cons_of_mem h
  have hover : Overridden (before ++ .start::since) ↔ choice before = .debug ∧ ∀ on, .setDebugLogs on ∉ since := by
    constructor
    · rintro ⟨before',since',he,hbefore',hdebug,hnone⟩
      obtain ⟨rfl,rfl⟩ := split_unique hbefore hbefore' he
      exact ⟨hdebug,hnone⟩
    · rintro ⟨hdebug,hnone⟩
      exact ⟨before,since,rfl,hbefore,hdebug,hnone⟩
  have hchoice := choice_append before (.start::since)
  have hforce : choice (.start::since) = ((since.filterMap LogEvent.chosen).getLast?).getD .info := rfl
  rw [List.filterMap_cons_none rfl] at hchoice
  rw [hover,inForce,since_of_split hbefore,hchoice,hforce]
  by_cases hnone : ∀ on, .setDebugLogs on ∉ since
  · rw [chosen_nil.mpr hnone]
    rcases choice_cases before with hinfo | hdebug
    · right
      rw [hinfo]
      exact ⟨fun hov => absurd hov.1 nofun,rfl⟩
    · left
      rw [hdebug]
      exact ⟨⟨rfl,hnone⟩,rfl,rfl⟩
  · right
    refine ⟨fun hov => hnone hov.2,?_⟩
    cases hlast : (since.filterMap LogEvent.chosen).getLast? with
    | none => exact absurd (chosen_nil.mp (List.getLast?_eq_none_iff.mp hlast)) hnone
    | some f => rfl

theorem overridden_of_prefix {front back : List LogEvent} (h : Overridden (front ++ back)) (hstart : .start ∈ front) :
    Overridden front := by
  obtain ⟨before,since,he,hbefore,hdebug,hnone⟩ := h
  obtain ⟨before',since',rfl,hbefore'⟩ := List.eq_append_cons_of_mem hstart
  rw [List.append_assoc,List.cons_append] at he
  obtain ⟨rfl,rfl⟩ := split_unique hbefore' hbefore he
  exact ⟨before',since',rfl,hbefore',hdebug,fun on hon => hnone on (List.mem_append_left _ hon)⟩

/-! ### The records -/

theorem recordsFrom_append (front mid back : List LogEvent) :
    recordsFrom front (mid ++ back) = recordsFrom front mid ++ recordsFrom (front ++ mid) back := by
  induction mid generalizing front with
  | nil => simp [recordsFrom]
  | cons ev mid ih =>
    rw [List.cons_append,recordsFrom,recordsFrom,ih,List.append_assoc,List.append_assoc]
    rfl

section
variable {level : List LogEvent → LevelFilter}

theorem admits_iff {x : List LogEvent × Record} :
    admits level x = true ↔ .start ∈ x.1 ∧ x.2.level.rank ≤ (level x.1).rank := by
  simp [admits]

theorem admitted_concat (events : List LogEvent) (ev : LogEvent) :
    admitted level (events ++ [ev]) = admitted level events ++ (ev.recorded events).filter (admits level) := by
  rw [admitted,recordsFrom_append,List.filter_append,List.nil_append,recordsFrom,recordsFrom,List.append_nil]
  rfl

theorem admitted_concat_of_not {events : List LogEvent} {ev : LogEvent}
    (h : ∀ r, ev = .record r → admits level (events,r) = false) :
    admitted level (events ++ [ev]) = admitted level events := by
  have hnone : (ev.recorded events).filter (admits level) = [] := by
    cases ev with
    | record r => simp [LogEvent.recorded,h r rfl]
    | _ => rfl
  rw [admitted_concat,hnone,List.append_nil]

theorem admitted_concat_record {events : List LogEvent} {r : Record} (h : admits level (events,r) = true) :
    admitted level (events ++ [.record r]) = admitted level events ++ [(events,r)] := by
  rw [admitted_concat,LogEvent.recorded,List.filter_cons_of_pos h,List.filter_nil]

/-- Where an admitted record stands in the history. -/
theorem admitted_split {events : List LogEvent} {x : List LogEvent × Record} {a b : List (List LogEvent × Record)}
    (h : admitted level events = a ++ x::b) :
    (∃ back, events = x.1 ++ .record x.2::back) ∧ a = admitted level x.1 := by
  induction events using List.reverseRecOn generalizing b with
  | nil =>
    change [] = _ at h
    simp at h
  | append_singleton events ev ih =>
    by_cases hev : ∀ r, ev = .record r → admits level (events,r) = false
    · rw [admitted_concat_of_not hev] at h
      obtain ⟨⟨back,he⟩,ha⟩ := ih h
      exact ⟨⟨back ++ [ev],by rw [← List.cons_append,← List.append_assoc,← he]⟩,ha⟩
    · push Not at hev
      obtain ⟨r,rfl,hadm⟩ := hev
      rw [admitted_concat_record (Bool.eq_true_of_not_eq_false hadm)] at h
      rcases List.eq_nil_or_concat' b with rfl | ⟨b,y,rfl⟩
      · obtain ⟨ha,hx⟩ := List.append_inj' h rfl
        rw [← List.singleton_inj.mp hx]
        exact ⟨⟨[],rfl⟩,ha.symm⟩
      · rw [← List.cons_append,← List.append_assoc] at h
        obtain ⟨⟨back,he⟩,ha⟩ := ih (List.append_inj' h rfl).1
        exact ⟨⟨back ++ [.record r],by rw [← List.cons_append,← List.append_assoc,← he]⟩,ha⟩

theorem admitted_append (front back : List LogEvent) :
    ∃ more, admitted level (front ++ back) = admitted level front ++ more := by
  refine ⟨(recordsFrom ([] ++ front) back).filter (admits level),?_⟩
  rw [admitted,recordsFrom_append,List.filter_append]
  rfl

end

/-! ### The ring -/

/-- The log after a history, as it is. -/
structure Replays (events : List LogEvent) (l : Logging) : Prop where
  loggerSet : l.loggerSet = decide (.start ∈ events)
  boxedLogger : l.boxedLogger = decide (.start ∈ events)
  maxLevel : .start ∈ events → l.maxLevel = inForce events
  ring : l.ring = ((admitted inForce events).map fun x => line x.2).rtake LOG_RING_CAP

theorem mem_concat_of_ne {events : List LogEvent} {ev : LogEvent} (h : ev ≠ .start) :
    .start ∈ events ++ [ev] ↔ .start ∈ events := by
  rw [List.mem_append,List.mem_singleton]
  exact or_iff_left fun he => h he.symm

/-- An event that installs nothing: it may change the level, and the ring if the record is admitted. -/
theorem Replays.concat {events : List LogEvent} {l l' : Logging} (h : Replays events l) {ev : LogEvent}
    (hev : ev ≠ .start) (hset : l'.loggerSet = l.loggerSet) (hboxed : l'.boxedLogger = l.boxedLogger)
    (hlevel : l'.maxLevel = ev.chosen.getD l.maxLevel)
    (hring : l'.ring = ((admitted inForce (events ++ [ev])).map fun x => line x.2).rtake LOG_RING_CAP) :
    Replays (events ++ [ev]) l' := by
  refine ⟨?_,?_,fun hmem => ?_,hring⟩
  · simpa only [hset,mem_concat_of_ne hev] using h.loggerSet
  · simpa only [hboxed,mem_concat_of_ne hev] using h.boxedLogger
  · have hstart := (mem_concat_of_ne hev).mp hmem
    rw [hlevel,inForce_concat hstart,h.maxLevel hstart]

theorem replays_start {events : List LogEvent} {l : Logging} (h : Replays events l) :
    Replays (events ++ [.start]) l.installLogger := by
  have hmem : .start ∈ events ++ [LogEvent.start] := by simp
  have hring := h.ring
  have hsame : admitted inForce (events ++ [.start]) = admitted inForce events :=
    admitted_concat_of_not fun _ he => nomatch he
  rw [← hsame] at hring
  rw [Logging.installLogger]
  by_cases hstart : .start ∈ events
  · have hset : l.loggerSet = true := by rw [h.loggerSet,decide_eq_true hstart]
    have hboxed : l.boxedLogger = true := by rw [h.boxedLogger,decide_eq_true hstart]
    rw [if_pos hset]
    refine ⟨by rw [hset,decide_eq_true hmem],by rw [hboxed,decide_eq_true hmem],fun _ => ?_,hring⟩
    rw [inForce_concat hstart]
    exact h.maxLevel hstart
  · have hset : l.loggerSet = false := by rw [h.loggerSet,decide_eq_false hstart]
    have hboxed : l.boxedLogger = false := by rw [h.boxedLogger,decide_eq_false hstart]
    simp only [hset,Logging.setBoxedLogger,hboxed,Bool.false_eq_true,if_false]
    exact ⟨(decide_eq_true hmem).symm,(decide_eq_true hmem).symm,fun _ => (inForce_started hstart).symm,hring⟩

theorem replays_record {events : List LogEvent} {l : Logging} (h : Replays events l) (r : Record) :
    Replays (events ++ [.record r]) (l.record r) := by
  have hring := h.ring
  by_cases hadm : admits inForce (events,r) = true
  · obtain ⟨hstart,hlevel⟩ := admits_iff.mp hadm
    rw [← h.maxLevel hstart] at hlevel
    have hboxed : l.boxedLogger = true := by rw [h.boxedLogger,decide_eq_true hstart]
    have hlogged : l.record r = { l with ring := push LOG_RING_CAP l.ring (line r) } := by
      simp [Logging.record,Logging.log,Logging.enabled,hlevel,hboxed]
    rw [hlogged]
    refine h.concat nofun rfl rfl rfl ?_
    rw [admitted_concat_record hadm,List.map_append,List.map_singleton,← push_rtake (by decide),← hring]
  · rw [Bool.not_eq_true] at hadm
    have hnone : admitted inForce (events ++ [.record r]) = admitted inForce events :=
      admitted_concat_of_not fun r' he => LogEvent.record.inj he ▸ hadm
    rw [← hnone] at hring
    have hsame : l.record r = l := by
      rw [Logging.record]
      split_ifs with hlevel hboxed
      · have hstart : .start ∈ events := by simpa [hboxed] using h.boxedLogger
        rw [h.maxLevel hstart] at hlevel
        rw [admits_iff.mpr ⟨hstart,hlevel⟩] at hadm
        cases hadm
      · rfl
      · rfl
    rw [hsame]
    exact h.concat nofun rfl rfl rfl hring

theorem replays_step {events : List LogEvent} {l : Logging} (h : Replays events l) (ev : LogEvent) :
    Replays (events ++ [ev]) (l.step ev) := by
  have hring : (∀ r, ev ≠ .record r) →
      l.ring = ((admitted inForce (events ++ [ev])).map fun x => line x.2).rtake LOG_RING_CAP := fun hne => by
    rw [admitted_concat_of_not fun r he => absurd he (hne r)]
    exact h.ring
  cases ev with
  | setDebugLogs on => exact h.concat nofun rfl rfl rfl (hring fun _ he => nomatch he)
  | start => exact replays_start h
  | stop => exact h.concat nofun rfl rfl rfl (hring fun _ he => nomatch he)
  | record r => exact replays_record h r

theorem logging_replays (events : List LogEvent) : Replays events (logging events) := by
  induction events using List.reverseRecOn with
  | nil => exact ⟨rfl,rfl,nofun,rfl⟩
  | append_singleton events ev ih =>
    rw [logging,List.foldl_append,List.foldl_cons,List.foldl_nil]
    exact replays_step ih ev

/-! ### The lines that are lost -/

theorem text_head_injective {a b : Level} (h : a.text.toList.head? = b.text.toList.head?) : a = b := by
  cases a <;> cases b <;> first | rfl | exact absurd h (by decide)

/-- A line tells the level of its record: the seconds are digits, and the level stands behind them. -/
theorem level_of_line {r r' : Record} (h : line r = line r') : r.level = r'.level := by
  have hthird : ∀ r : Record, ((line r).toList.dropWhile Char.isDigit)[2]? = r.level.text.toList.head? := by
    intro r
    have hdigits : ∀ c ∈ (toString (r.sinceEpoch.getD 0)).toList, c.isDigit = true := fun c hc =>
      Nat.isDigit_of_mem_toDigits (by decide) (by decide) (show c ∈ Nat.toDigits 10 (r.sinceEpoch.getD 0).toNat from
        (Nat.toList_repr (n := (r.sinceEpoch.getD 0).toNat)) ▸ hc)
    simp only [line,String.toList_append,List.append_assoc]
    rw [List.dropWhile_append_of_pos hdigits]
    cases r.level <;> rfl
  apply text_head_injective
  rw [← hthird r,← hthird r',h]

theorem not_admits_inForce {x : List LogEvent × Record} (h : admits choice x = true) :
    admits inForce x = false ↔ Overridden x.1 ∧ x.2.level = .debug := by
  obtain ⟨hstart,hlevel⟩ := admits_iff.mp h
  rw [← Bool.not_eq_true,admits_iff]
  rcases inForce_cases hstart with ⟨hover,hdebug,hinfo⟩ | ⟨hover,hsame⟩
  · rw [hdebug] at hlevel
    rw [hinfo]
    cases hr : x.2.level <;> rw [hr] at hlevel <;> simp_all [Level.rank,LevelFilter.rank]
  · rw [hsame]
    exact iff_of_false (fun hnot => hnot ⟨hstart,hlevel⟩) fun hov => hover hov.1

/-- What is in force admits nothing that the choice does not. -/
theorem admitted_inForce (events : List LogEvent) :
    admitted inForce events = (admitted choice events).filter (admits inForce) := by
  rw [admitted,admitted,List.filter_filter]
  refine List.filter_congr fun x _ => ?_
  rw [Bool.eq_iff_iff,Bool.and_eq_true,iff_self_and]
  intro h
  obtain ⟨hstart,hlevel⟩ := admits_iff.mp h
  refine admits_iff.mpr ⟨hstart,?_⟩
  rcases inForce_cases hstart with ⟨_,hdebug,hinfo⟩ | ⟨_,hsame⟩
  · rw [hinfo] at hlevel
    rw [hdebug]
    exact hlevel.trans (by decide)
  · rwa [← hsame]

theorem asked_rtake (events : List LogEvent) : ((asked events).rtake LOG_RING_CAP).map line =
    ((admitted choice events).map fun x => line x.2).rtake LOG_RING_CAP := by
  rw [asked,← rtake_map,List.map_map]
  rfl

/-- Every debug line that was lost has a ring's length of lines behind it. -/
def LostPast (events : List LogEvent) : Prop :=
  ∀ front r back, events = front ++ .record r::back → Overridden front → r.level = .debug →
    (asked (front ++ [.record r])).length+LOG_RING_CAP ≤ (asked events).length

theorem admits_of_overridden {front : List LogEvent} {r : Record} (h : Overridden front) (hdebug : r.level = .debug) :
    admits choice (front,r) = true := by
  have hstart : .start ∈ front := by
    obtain ⟨before,since,rfl,_⟩ := h
    simp
  rcases inForce_cases hstart with ⟨_,hchoice,_⟩ | ⟨hnot,_⟩
  · refine admits_iff.mpr ⟨hstart,?_⟩
    rw [hdebug,hchoice]
    decide
  · exact absurd h hnot

/-- A record that is asked for and not admitted: where it stands, and why it was lost. -/
theorem lost_split {events : List LogEvent} {x : List LogEvent × Record} {a b : List (List LogEvent × Record)}
    (h : admitted choice events = a ++ x::b) (hlost : admits inForce x = false) :
    (∃ back, events = x.1 ++ .record x.2::back) ∧ a = admitted choice x.1 ∧ Overridden x.1 ∧ x.2.level = .debug := by
  have hmem : x ∈ admitted choice events := by simp [h]
  obtain ⟨hback,ha⟩ := admitted_split h
  exact ⟨hback,ha,(not_admits_inForce (List.of_mem_filter hmem)).mp hlost⟩

theorem asked_length {front : List LogEvent} {r : Record} (h : admits choice (front,r) = true) :
    (asked (front ++ [.record r])).length = (admitted choice front).length+1 := by
  rw [asked,admitted_concat_record h,List.length_map,List.length_append,List.length_singleton]

theorem ring_iff (events : List LogEvent) :
    (logging events).ring = ((asked events).rtake LOG_RING_CAP).map line ↔ LostPast events := by
  rw [(logging_replays events).ring,asked_rtake,admitted_inForce,rtake_filter_eq_iff]
  · constructor
    · intro h front r back he hover hdebug
      have hadm := admits_of_overridden hover hdebug
      obtain ⟨more,hmore⟩ : ∃ more, admitted choice (front ++ [.record r] ++ back) =
        admitted choice (front ++ [.record r]) ++ more := admitted_append _ _
      rw [List.append_assoc,List.singleton_append,← he,admitted_concat_record hadm,List.append_assoc] at hmore
      have hcap := h _ _ more hmore ((not_admits_inForce hadm).mpr ⟨hover,hdebug⟩)
      rw [asked_length hadm,asked,hmore]
      simp only [List.length_map,List.length_append,List.length_singleton]
      omega
    · intro h front x back hsplit hlost
      obtain ⟨⟨rest,he⟩,rfl,hover,hdebug⟩ := lost_split hsplit hlost
      have hcap := h _ _ rest he hover hdebug
      rw [asked_length (admits_of_overridden hover hdebug),asked,hsplit] at hcap
      simp only [List.length_map,List.length_append,List.length_cons] at hcap
      omega
  · -- no debug line is kept in front of one that is lost
    intro front x back hsplit hlost y hy hkept heq
    obtain ⟨_,rfl,hover,hdebug⟩ := lost_split hsplit hlost
    obtain ⟨a,b,hab⟩ := List.append_of_mem hy
    obtain ⟨⟨since,hx⟩,_⟩ := admitted_split hab
    have hadm' : admits choice y = true := List.of_mem_filter hy
    rw [hx] at hover
    have hover' := overridden_of_prefix hover (admits_iff.mp hadm').1
    have hlost' := (not_admits_inForce hadm').mpr ⟨hover',(level_of_line heq).trans hdebug⟩
    rw [hlost'] at hkept
    cases hkept

theorem level_iff (events : List LogEvent) :
    (.start ∈ events → (logging events).maxLevel = choice events) ↔ ¬ Overridden events := by
  have hlevel := (logging_replays events).maxLevel
  by_cases hstart : .start ∈ events
  · rw [hlevel hstart]
    rcases inForce_cases hstart with ⟨hover,hdebug,hinfo⟩ | ⟨hover,hsame⟩
    · rw [hdebug,hinfo]
      exact iff_of_false (fun h => absurd (h hstart) nofun) (not_not_intro hover)
    · exact iff_of_true (fun _ => hsame) hover
  · refine iff_of_true (fun h => absurd h hstart) ?_
    rintro ⟨before,since,rfl,_⟩
    simp at hstart

/-- The log shows what was asked for exactly when no choice of debug lines is overridden and the lines
that were lost have left the ring, and throughout a history exactly when the last choice before the
first start was not for debug lines. -/
theorem shows_iff (events : List LogEvent) :
    (Shows events (logging events) ↔ ¬ Overridden events ∧ LostPast events) ∧
    ((∀ front back, events = front ++ back → Shows front (logging front)) ↔
      ∀ front back, events = front ++ .start::back → .start ∉ front → choice front = .info) := by
  have hstate : ∀ events, Shows events (logging events) ↔ ¬ Overridden events ∧ LostPast events := by
    intro events
    rw [← level_iff,← ring_iff]
    constructor
    · intro h
      exact ⟨h.level,h.ring⟩
    · rintro ⟨hlevel,hring⟩
      exact ⟨hring,by rw [Logging.logs,hring],hlevel⟩
  refine ⟨hstate events,?_⟩
  constructor
  · intro h front back he hstart
    rcases choice_cases front with hinfo | hdebug
    · exact hinfo
    · have hshows := h (front ++ [.start]) back (by rw [he,List.append_assoc]; rfl)
      exact absurd ⟨front,[],rfl,hstart,hdebug,nofun⟩ ((hstate _).mp hshows).1
  · intro h front back he
    have hnone : ∀ first rest, front = first ++ rest → ¬ Overridden first := by
      rintro first rest rfl ⟨before,since,rfl,hbefore,hdebug,_⟩
      rw [List.append_assoc,List.append_assoc,List.cons_append] at he
      rw [h before _ he hbefore] at hdebug
      cases hdebug
    refine (hstate front).mpr ⟨hnone front [] (by simp),?_⟩
    intro first r rest hfirst hover
    exact absurd hover (hnone first _ hfirst)

/-- Debug lines are asked for before the first start: none is shown, and the level is not theirs. -/
theorem debug_line_lost :
    let events : List LogEvent := [.setDebugLogs true,.start,.record ⟨.debug,"zkas_walletd","scan",some 1700000000⟩]
    (logging events).logs = "" ∧ (asked events).map line = ["1700000000 [DEBUG] zkas_walletd: scan"] ∧
      (logging events).maxLevel = .info ∧ choice events = .debug ∧ ¬ Shows events (logging events) := by
  refine ⟨by decide,by decide,by decide,by decide,fun h => ?_⟩
  exact absurd (h.level (by decide)) (by decide)

/-! ### The log in the app -/

/-- A call of the app with the time it is made at, a choice of level, or a record of the engine. -/
inductive AppEvent where
  | call (ev : Event) (now : Option UInt64)
  | setDebugLogs (on : Bool)
  | record (r : Record)

structure App where
  process : Process
  log : Logging

def crateName : String := "zkas_walletd_mobile"

/-- The line of `start` about the resident wallets, once it has got as far as the configuration. -/
def residentLine (budget : UInt32) (now : Option UInt64) : Record where
  level := .info
  target := crateName
  args := "resident wallet cap " ++ toString (maxResidentWallets budget) ++ " (from a " ++ toString budget ++
    " MB app budget, not device free memory)"
  sinceEpoch := now

def budgetLine (mb : UInt32) (now : Option UInt64) : Record where
  level := .info
  target := crateName
  args := "memory budget for this app: " ++ toString mb ++ " MB"
  sinceEpoch := now

/-- What a call does to the log: a start installs the logger before it does anything else. -/
def AppEvent.logged (e : Process) : AppEvent → List LogEvent
  | .call (.start _ w) now =>
    if e.engine = none ∧ w.bind = true ∧ w.localAddr.isSome = true ∧ w.builds = true ∧ 0 < e.memBudgetMb then
      [.start,.record (residentLine e.memBudgetMb now)]
    else [.start]
  | .call .stop _ => [.stop]
  | .call (.setMemoryBudgetMb mb) now => [.record (budgetLine mb now)]
  | .call _ _ => []
  | .setDebugLogs on => [.setDebugLogs on]
  | .record r => [.record r]

def AppEvent.process (e : Process) : AppEvent → Option Process
  | .call ev _ => step e ev
  | _ => some e

def App.step (s : App) (ev : AppEvent) : Option App :=
  (ev.process s.process).map fun e => ⟨e,(ev.logged s.process).foldl Logging.step s.log⟩

/-- What the log sees of a run of the app. -/
def history (e : Process) : List AppEvent → List LogEvent
  | [] => []
  | ev::rest => ev.logged e ++ ((ev.process e).map fun e' => history e' rest).getD []

def AppEvent.call? : AppEvent → Option Event
  | .call ev _ => some ev
  | _ => none

theorem app_run_from {events : List AppEvent} {s s' : App} (h : run App.step events s = some s') :
    run step (events.filterMap AppEvent.call?) s.process = some s'.process ∧
      s'.log = (history s.process events).foldl Logging.step s.log := by
  induction events generalizing s with
  | nil =>
    rw [← Option.some.inj h]
    exact ⟨rfl,rfl⟩
  | cons ev rest ih =>
    rw [run_cons] at h
    obtain ⟨mid,hmid,h⟩ := Option.bind_eq_some_iff.mp h
    obtain ⟨e',he',rfl⟩ := Option.map_eq_some_iff.mp hmid
    obtain ⟨hprocess,hlog⟩ := ih h
    refine ⟨?_,?_⟩
    · cases ev with
      | call c now =>
        have hstep : step s.process c = some e' := he'
        change run step (c::rest.filterMap AppEvent.call?) s.process = some s'.process
        rw [run_cons,hstep]
        exact hprocess
      | _ =>
        cases he'
        exact hprocess
    · rw [hlog,history,he',List.foldl_append]
      rfl

/-- The engine runs as it does without a log, and the log is that of what it saw of the run. -/
theorem app_run {events : List AppEvent} {s : App} (h : run App.step events ⟨initial,.initial⟩ = some s) :
    run step (events.filterMap AppEvent.call?) initial = some s.process ∧ s.log = logging (history initial events) :=
  app_run_from h

end ZkasSigner.Engine
