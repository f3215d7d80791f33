import ZkasSigner.Foundation.Monitor
import Mathlib.Order.Nat

/-! Calls behind one lock take turns. A run of steps from any threads is told again as a list of
turns: each answered call is one turn, and what happens without the lock stands between them. -/
namespace Foundation.Monitor
open Runs

inductive Turn (Thread Call Answer Outside : Type*) where
  | answered (t : Thread) (c : Call) (answer : Answer)
  | lost
  | outside (o : Outside)
  deriving DecidableEq

variable {Thread Call Place Data Action Answer Outside : Type*}

def Turn.reply : Turn Thread Call Answer Outside → Option (Thread × Call × Answer)
  | .answered t c answer => some (t,c,answer)
  | _ => none

def Turn.outside? : Turn Thread Call Answer Outside → Option Outside
  | .outside o => some o
  | _ => none

def Turn.isLost : Turn Thread Call Answer Outside → Bool
  | .lost => true
  | _ => false

def Label.outside? : Label Thread Call Action Answer Outside → Option Outside
  | .outside o => some o
  | _ => none

def Label.breaks (breaks : Action → Bool) : Label Thread Call Action Answer Outside → Bool
  | .acted _ a => breaks a
  | _ => false

/-- The call behind the lock, and the calls that were answered, in the order of their answers. -/
def tally (s : Option Call × List (Thread × Call × Answer)) :
    Label Thread Call Action Answer Outside → Option Call × List (Thread × Call × Answer)
  | .locked _ c => (some c,s.2)
  | .left t (.returned answer) => (none,s.2 ++ (s.1.map fun c => (t,c,answer)).toList)
  | .left _ .panicked => (none,s.2)
  | _ => s

def tallied (labels : List (Label Thread Call Action Answer Outside)) : Option Call × List (Thread × Call × Answer) :=
  labels.foldl tally (none,[])

def answered (labels : List (Label Thread Call Action Answer Outside)) : List (Thread × Call × Answer) := (tallied labels).2

@[simp] theorem tallied_concat (labels : List (Label Thread Call Action Answer Outside))
    (l : Label Thread Call Action Answer Outside) : tallied (labels ++ [l]) = tally (tallied labels) l := by
  rw [tallied,List.foldl_append]
  rfl

/-- Whole turns: what an answered call does, what a lost one may leave behind, and the changes
that need no lock. -/
inductive Serial (m : Code Call Place Data Action Answer Outside) (whole : Call → Data → Answer → Data → Prop)
    (lost : Data → Data → Prop) (d₀ : Data) : List (Turn Thread Call Answer Outside) → Data → Prop where
  | nil : Serial m whole lost d₀ [] d₀
  | answered {turns : List (Turn Thread Call Answer Outside)} {d d' : Data} {t : Thread} {c : Call} {answer : Answer} :
      Serial m whole lost d₀ turns d → whole c d answer d' → Serial m whole lost d₀ (turns ++ [.answered t c answer]) d'
  | lost {turns : List (Turn Thread Call Answer Outside)} {d d' : Data} :
      Serial m whole lost d₀ turns d → lost d d' → Serial m whole lost d₀ (turns ++ [.lost]) d'
  | outside {turns : List (Turn Thread Call Answer Outside)} {d d' : Data} {o : Outside} :
      Serial m whole lost d₀ turns d → m.outside d o = some d' → Serial m whole lost d₀ (turns ++ [.outside o]) d'

variable {m : Code Call Place Data Action Answer Outside} {whole : Call → Data → Answer → Data → Prop}
  {lost : Data → Data → Prop} {d₀ : Data}

theorem Serial.outsides {turns : List (Turn Thread Call Answer Outside)} {d d' : Data} {later : List Outside}
    (h : Serial m whole lost d₀ turns d) (hrun : run m.outside later d = some d') :
    Serial m whole lost d₀ (turns ++ later.map .outside) d' := by
  induction later generalizing turns d with
  | nil =>
    rw [← Option.some.inj hrun]
    simpa using h
  | cons o later ih =>
    rw [run_cons] at hrun
    obtain ⟨next,hnext,hrun⟩ := Option.bind_eq_some_iff.mp hrun
    have htail := ih (h.outside hnext) hrun
    rwa [List.append_assoc,List.singleton_append] at htail

/-- How far a call has come, told by the turns: the data its turn will find, the changes without the
lock that its turn will come before, the place it is at and the data it sees. An action that breaks
off may end a turn early. -/
structure Serializes (m : Code Call Place Data Action Answer Outside) (free : Data → Prop)
    (whole : Call → Data → Answer → Data → Prop) (lost : Data → Data → Prop) (breaks : Action → Bool)
    (during : Call → Data → List Outside → Place → Data → Prop) : Prop where
  enter : ∀ c d, free d → during c d [] (m.enter c) d
  act : ∀ c e later p d a p' d', during c e later p d → m.act p d a = some (p',d') →
    during c e later p' d' ∨ (breaks a ∧ ∃ e' e'', (e' = e ∨ lost e e') ∧ run m.outside later e' = some e'' ∧
      during c e'' [] p' d')
  outside : ∀ c e later p d o d', during c e later p d → m.outside d o = some d' →
    (later = [] ∧ ∃ e', m.outside e o = some e' ∧ during c e' [] p d') ∨ during c e (later ++ [o]) p d'
  returned : ∀ c e later p d answer, during c e later p d → m.exit p = some (.returned answer) →
    ∃ e', whole c e answer e' ∧ run m.outside later e' = some d
  panicked : ∀ c e later p d, during c e later p d → m.exit p = some .panicked → run m.outside later e = some d

variable {free : Data → Prop} {held : Place → Data → Prop} {breaks : Action → Bool}
  {during : Call → Data → List Outside → Place → Data → Prop}

/-- The turns of a run up to a state: whoever is behind the lock has not had its turn yet. -/
structure Told (m : Code Call Place Data Action Answer Outside) (whole : Call → Data → Answer → Data → Prop)
    (lost : Data → Data → Prop) (breaks : Action → Bool) (during : Call → Data → List Outside → Place → Data → Prop)
    (d₀ : Data) (labels : List (Label Thread Call Action Answer Outside)) (s : State Thread Call Place Data)
    (turns : List (Turn Thread Call Answer Outside)) (d : Data) : Prop where
  serial : Serial m whole lost d₀ turns d
  replies : turns.filterMap Turn.reply = answered labels
  lost : turns.countP Turn.isLost ≤ labels.countP (Label.breaks breaks)
  free : s.holder = none → s.data = d ∧ turns.filterMap Turn.outside? = labels.filterMap Label.outside?
  inside : ∀ t p, s.phase t = .inside p → ∃ c later, (tallied labels).1 = some c ∧ during c d later p s.data ∧
    turns.filterMap Turn.outside? ++ later = labels.filterMap Label.outside?

theorem told_start : Told m whole lost breaks during d₀ []
    (Code.start d₀ : State Thread Call Place Data) ([] : List (Turn Thread Call Answer Outside)) d₀ where
  serial := .nil
  replies := rfl
  lost := Nat.le_refl 0
  free _ := ⟨rfl,rfl⟩
  inside := nofun

@[simp] theorem filterMap_reply_outside (later : List Outside) :
    (later.map (Turn.outside : Outside → Turn Thread Call Answer Outside)).filterMap Turn.reply = [] := by
  induction later with
  | nil => rfl
  | cons o later ih => exact ih

@[simp] theorem filterMap_outside_outside (later : List Outside) :
    (later.map (Turn.outside : Outside → Turn Thread Call Answer Outside)).filterMap Turn.outside? = later := by
  induction later with
  | nil => rfl
  | cons o later ih => exact congrArg (List.cons o) ih

section
variable {labels : List (Label Thread Call Action Answer Outside)} {s s' : State Thread Call Place Data}
  {turns : List (Turn Thread Call Answer Outside)} {d : Data}

theorem Told.replies_append (h : Told m whole lost breaks during d₀ labels s turns d)
    {l : Label Thread Call Action Answer Outside} {more : List (Turn Thread Call Answer Outside)}
    (hmore : more.filterMap Turn.reply = []) (hl : answered (labels ++ [l]) = answered labels) :
    (turns ++ more).filterMap Turn.reply = answered (labels ++ [l]) := by
  rw [List.filterMap_append,hmore,List.append_nil,hl]
  exact h.replies

theorem Told.lost_append (h : Told m whole lost breaks during d₀ labels s turns d)
    {l : Label Thread Call Action Answer Outside} {more : List (Turn Thread Call Answer Outside)}
    (hmore : more.countP Turn.isLost ≤ [l].countP (Label.breaks breaks)) :
    (turns ++ more).countP Turn.isLost ≤ (labels ++ [l]).countP (Label.breaks breaks) := by
  rw [List.countP_append,List.countP_append]
  exact Nat.add_le_add h.lost hmore

theorem countP_lost_outside (later : List Outside) :
    (later.map (Turn.outside : Outside → Turn Thread Call Answer Outside)).countP Turn.isLost = 0 := by
  refine List.countP_eq_zero.mpr fun turn hturn => ?_
  obtain ⟨o,_,rfl⟩ := List.mem_map.mp hturn
  nofun

theorem answered_concat {l : Label Thread Call Action Answer Outside} (hl : (tally (tallied labels) l).2 = answered labels) :
    answered (labels ++ [l]) = answered labels := by
  rw [answered,tallied_concat,hl]

variable [DecidableEq Thread] [DecidableEq Call] [DecidableEq Answer]

/-- A step behind the lock is no turn yet, unless the call breaks off. -/
theorem Told.acted (hs : Serializes m free whole lost breaks during) (hk : Kept free held s)
    (h : Told m whole lost breaks during d₀ labels s turns d) {t : Thread} {a : Action}
    (hstep : m.step s (.acted t a) = some s') :
    ∃ more d', Told m whole lost breaks during d₀ (labels ++ [.acted t a]) s' (turns ++ more) d' := by
  obtain ⟨p,p',data,hp,ha,rfl⟩ := Code.step_acted hstep
  obtain ⟨c,later,hc,hduring,houts⟩ := h.inside t p hp
  have hu := only_inside (t := t) (p := p') fun u q hne hq => hne (hk.same hq hp)
  have hheld : s.holder ≠ none := by
    rw [hk.alone t p hp]
    nofun
  have hc' : (tallied (labels ++ [.acted t a])).1 = some c := by
    rw [tallied_concat]
    exact hc
  have hanswered : answered (labels ++ [.acted t a]) = answered labels := answered_concat rfl
  have hlabels : (labels ++ [Label.acted t a]).filterMap Label.outside? = labels.filterMap Label.outside? :=
    filterMap_concat_none labels rfl
  rcases hs.act c d later p s.data a p' data hduring ha with hstill | ⟨hbreaks,e',e'',he,hlater,hstill⟩
  · refine ⟨[],d,?_,h.replies_append rfl hanswered,h.lost_append (Nat.zero_le _),fun hnone => absurd hnone hheld,
      fun u q hq => ⟨c,later,hc',?_,?_⟩⟩
    · rw [List.append_nil]
      exact h.serial
    · rw [(hu u q hq).2]
      exact hstill
    · rw [List.append_nil,hlabels]
      exact houts
  · obtain ⟨gone,hserial,hreply,hout,hone⟩ : ∃ gone, Serial m whole lost d₀ (turns ++ gone) e' ∧
        gone.filterMap Turn.reply = [] ∧ gone.filterMap Turn.outside? = [] ∧ gone.countP Turn.isLost ≤ 1 := by
      rcases he with rfl | hlost
      · exact ⟨[],by rw [List.append_nil]; exact h.serial,rfl,rfl,Nat.zero_le _⟩
      · exact ⟨[.lost],h.serial.lost hlost,rfl,rfl,Nat.le_refl 1⟩
    refine ⟨gone ++ later.map .outside,e'',?_,h.replies_append ?_ hanswered,h.lost_append ?_,
      fun hnone => absurd hnone hheld,fun u q hq => ⟨c,[],hc',?_,?_⟩⟩
    · rw [← List.append_assoc]
      exact hserial.outsides hlater
    · rw [List.filterMap_append,hreply,filterMap_reply_outside]
      rfl
    · rw [List.countP_append,countP_lost_outside,List.countP_singleton]
      exact hone.trans_eq (if_pos hbreaks).symm
    · rw [(hu u q hq).2]
      exact hstill
    · rw [List.append_nil,List.filterMap_append,List.filterMap_append,hout,filterMap_outside_outside,hlabels]
      exact houts

/-- The turn of an answered call comes when the lock is given back, and what its turn was to come
before follows at once. -/
theorem Told.left (hs : Serializes m free whole lost breaks during) (hk : Kept free held s)
    (h : Told m whole lost breaks during d₀ labels s turns d) {t : Thread} {x : Exit Answer}
    (hstep : m.step s (.left t x) = some s') :
    ∃ more d', Told m whole lost breaks during d₀ (labels ++ [.left t x]) s' (turns ++ more) d' := by
  obtain ⟨p,hp,hx,rfl⟩ := Code.step_left hstep
  obtain ⟨c,later,hc,hduring,houts⟩ := h.inside t p hp
  have hu : ∀ u q, Function.update s.phase t .idle u ≠ .inside q := fun u q hu =>
    (inside_of_update nofun hu).1 (hk.same (inside_of_update nofun hu).2 hp)
  cases x with
  | returned answer =>
    obtain ⟨e',hwhole,hlater⟩ := hs.returned c d later p s.data answer hduring hx
    refine ⟨.answered t c answer::later.map .outside,s.data,?_,?_,h.lost_append ?_,fun _ => ⟨rfl,?_⟩,
      fun u q hq => absurd hq (hu u q)⟩
    · rw [List.append_cons]
      exact (h.serial.answered hwhole).outsides hlater
    · rw [List.filterMap_append,h.replies,answered,answered,tallied_concat,tally,hc]
      exact congrArg (_ ++ (t,c,answer)::·) (filterMap_reply_outside later)
    · exact (countP_lost_outside later).trans_le (Nat.zero_le _)
    · rw [List.filterMap_append,filterMap_concat_none labels rfl,← houts]
      exact congrArg _ (filterMap_outside_outside later)
  | panicked =>
    refine ⟨later.map .outside,s.data,?_,h.replies_append (filterMap_reply_outside later) (answered_concat rfl),
      h.lost_append ((countP_lost_outside later).trans_le (Nat.zero_le _)),fun _ => ⟨rfl,?_⟩,fun u q hq => absurd hq (hu u q)⟩
    · exact h.serial.outsides (hs.panicked c d later p s.data hduring hx)
    · rw [List.filterMap_append,filterMap_outside_outside,filterMap_concat_none labels rfl]
      exact houts

/-- A change without the lock is a turn of its own, or one that waits for the call behind the lock. -/
theorem Told.outside (hs : Serializes m free whole lost breaks during) (hk : Kept free held s)
    (h : Told m whole lost breaks during d₀ labels s turns d) {o : Outside}
    (hstep : m.step s (.outside o) = some s') :
    ∃ more d', Told m whole lost breaks during d₀ (labels ++ [.outside o]) s' (turns ++ more) d' := by
  obtain ⟨data,hdata,rfl⟩ := Code.step_outside hstep
  have hanswered : answered (labels ++ [.outside o]) = answered labels := answered_concat rfl
  have hlabels : (labels ++ [Label.outside o]).filterMap Label.outside? = labels.filterMap Label.outside? ++ [o] :=
    filterMap_concat_some labels rfl
  cases hholder : s.holder with
  | none =>
    obtain ⟨rfl,houts⟩ := h.free hholder
    refine ⟨[.outside o],data,h.serial.outside hdata,h.replies_append rfl hanswered,h.lost_append (Nat.zero_le _),
      fun _ => ⟨rfl,?_⟩,fun t p hp => ?_⟩
    · rw [List.filterMap_append,hlabels,houts]
      rfl
    · rw [hk.alone t p hp] at hholder
      cases hholder
  | some t =>
    obtain ⟨p,hp⟩ := hk.behind t hholder
    obtain ⟨c,later,hc,hduring,houts⟩ := h.inside t p hp
    have hc' : (tallied (labels ++ [.outside o])).1 = some c := by
      rw [tallied_concat]
      exact hc
    have honly : ∀ u q, s.phase u = .inside q → q = p := fun u q hq => by
      rw [hk.same hq hp,hp] at hq
      exact (Phase.inside.inj hq).symm
    rcases hs.outside c d later p s.data o data hduring hdata with ⟨rfl,e',he',hstill⟩ | hstill
    · refine ⟨[.outside o],e',h.serial.outside he',h.replies_append rfl hanswered,h.lost_append (Nat.zero_le _),nofun,
        fun u q hq => ⟨c,[],hc',?_,?_⟩⟩
      · rw [honly u q hq]
        exact hstill
      · rw [List.append_nil] at houts ⊢
        rw [List.filterMap_append,hlabels,houts]
        rfl
    · refine ⟨[],d,?_,h.replies_append rfl hanswered,h.lost_append (Nat.zero_le _),nofun,
        fun u q hq => ⟨c,later ++ [o],hc',?_,?_⟩⟩
      · rw [List.append_nil]
        exact h.serial
      · rw [honly u q hq]
        exact hstill
      · rw [List.append_nil,hlabels,← List.append_assoc,houts]

theorem Told.step (hs : Serializes m free whole lost breaks during) (hk : Kept free held s)
    (h : Told m whole lost breaks during d₀ labels s turns d) {l : Label Thread Call Action Answer Outside}
    (hstep : m.step s l = some s') :
    ∃ more d', Told m whole lost breaks during d₀ (labels ++ [l]) s' (turns ++ more) d' := by
  cases l with
  | called t c =>
    obtain ⟨_,rfl⟩ := Code.step_called hstep
    have hlabels : (labels ++ [Label.called t c]).filterMap Label.outside? = labels.filterMap Label.outside? :=
      filterMap_concat_none labels rfl
    refine ⟨[],d,?_,h.replies_append rfl (answered_concat rfl),h.lost_append (Nat.zero_le _),fun hnone => ?_,
      fun u p hp => ?_⟩
    · rw [List.append_nil]
      exact h.serial
    · rw [List.append_nil,hlabels]
      exact h.free hnone
    · obtain ⟨c',later,hc,hduring,houts⟩ := h.inside u p (inside_of_update nofun hp).2
      refine ⟨c',later,?_,hduring,?_⟩
      · rw [tallied_concat]
        exact hc
      · rw [List.append_nil,hlabels]
        exact houts
  | locked t c =>
    obtain ⟨_,hholder,rfl⟩ := Code.step_locked hstep
    obtain ⟨rfl,houts⟩ := h.free hholder
    have hu := only_inside (t := t) (p := m.enter c) fun u q hne hq => by
      rw [hk.alone u q hq] at hholder
      cases hholder
    refine ⟨[],s.data,?_,h.replies_append rfl (answered_concat rfl),h.lost_append (Nat.zero_le _),nofun,
      fun u p hp => ⟨c,[],?_,?_,?_⟩⟩
    · rw [List.append_nil]
      exact h.serial
    · rw [tallied_concat]
      rfl
    · rw [(hu u p hp).2]
      exact hs.enter c s.data (hk.free hholder)
    · rw [List.append_nil,List.append_nil,filterMap_concat_none labels rfl]
      exact houts
  | acted t a => exact h.acted hs hk hstep
  | left t x => exact h.left hs hk hstep
  | outside o => exact h.outside hs hk hstep

/-- Every run is told by turns, and what comes later only adds to them. -/
theorem Told.run (hm : Sound m free held) (hs : Serializes m free whole lost breaks during) (hk : Kept free held s)
    (h : Told m whole lost breaks during d₀ labels s turns d)
    {later : List (Label Thread Call Action Answer Outside)} (hrun : Runs.run m.step later s = some s') :
    ∃ more d', Told m whole lost breaks during d₀ (labels ++ later) s' (turns ++ more) d' := by
  induction later generalizing labels s turns d with
  | nil =>
    rw [← Option.some.inj hrun]
    exact ⟨[],d,by rwa [List.append_nil,List.append_nil]⟩
  | cons l later ih =>
    rw [run_cons] at hrun
    obtain ⟨next,hnext,hrun⟩ := Option.bind_eq_some_iff.mp hrun
    obtain ⟨more,d',hnow⟩ := h.step hs hk hnext
    obtain ⟨rest,d'',hthen⟩ := ih (hm.kept_step s l next hk hnext) hnow hrun
    refine ⟨more ++ rest,d'',?_⟩
    rwa [List.append_assoc,List.append_assoc,List.singleton_append] at hthen

end

end Foundation.Monitor
