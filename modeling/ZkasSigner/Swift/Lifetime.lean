import ZkasSigner.Foundation.Runs
import ZkasSigner.Swift.Binding

/-! Signers in an app with many threads. References to a signer come and go while calls on it run, and
a call may outlive the last reference: a signer is there for as long as either is left. -/
namespace ZkasSigner.Swift
open Foundation Foundation.Text Foundation.Script

/-- An object of the app: its references, and the signer it was made with. When the last reference is
gone its `deinit` is still to run. -/
structure Object where
  references : ℕ
  signer : Mobile.Signer

/-- Memory, the objects by their pointers, and the calls that run with a pointer of their own, each
with the signer of the object it was made on. -/
structure Pool where
  world : World
  objects : ℕ → Option Object
  calls : ℕ → List Mobile.Signer
  crashed : Bool

inductive Event where
  | make (secret network : String)
  | retain (pointer : ℕ)
  | release (pointer : ℕ)
  | deinit (pointer : ℕ)
  | enter (pointer : ℕ)
  | leave (pointer call : ℕ)

namespace Pool

def initial (buffers signers : ℕ → ℕ) : Pool where
  world := .initial buffers signers
  objects := fun _ => none
  calls := fun _ => []
  crashed := false

/-- A piece of the binding runs. What it throws is the caller's to handle, but for what ends the process. -/
def perform {α : Type} (pool : Pool) (x : Script α) (after : α → Pool → Pool) : Pool :=
  match x.run pool.world with
  | .ok a w => after a { pool with world := w }
  | .error (.fatal _) w => { pool with world := w, crashed := true }
  | .error _ w => { pool with world := w }

def setObject (pool : Pool) (pointer : ℕ) (object : Option Object) : Pool :=
  { pool with objects := Function.update pool.objects pointer object }

def setCalls (pool : Pool) (pointer : ℕ) (calls : List Mobile.Signer) : Pool :=
  { pool with calls := Function.update pool.calls pointer calls }

/-- Those who keep a signer: its object, and the calls on it. -/
def holders (pool : Pool) (pointer : ℕ) : List Mobile.Signer :=
  (pool.objects pointer).toList.map Object.signer ++ pool.calls pointer

end Pool

/-- What a call came to can be handed over. -/
def Crosses {α : Type} : Outcome α → Prop
  | .error (.err reason) => (asBytes reason).length < 2^31
  | .error .unfinished => False
  | _ => True

instance {α : Type} : (outcome : Outcome α) → Decidable (Crosses outcome)
  | .ok _ => isTrue trivial
  | .error (.err _) => inferInstanceAs (Decidable (_ < _))
  | .error (.panic _) => isTrue trivial
  | .error .unfinished => isFalse id

section
variable (C : MintCrates) (S : Scaffolding C.Rng)

/-- The next step of one of the threads. A method can only be called on an object that is referred to:
it takes its pointer first, and gives it back when the library's function is done. -/
def step (pool : Pool) : Event → Option Pool
  | .make secret network =>
    let made := Mobile.fromSecret C.toWalletCrates secret network
    if Fits [secret,network] ∧ Crosses made then
      some (pool.perform (Signer.fromSecret S secret network) fun pointer pool =>
        pool.setObject pointer (made.toOption.map (Object.mk 1)))
    else none
  | .retain pointer =>
    match pool.objects pointer with
    | some ⟨n+1,signer⟩ => some (pool.setObject pointer (some ⟨n+2,signer⟩))
    | _ => none
  | .release pointer =>
    match pool.objects pointer with
    | some ⟨n+1,signer⟩ => some (pool.setObject pointer (some ⟨n,signer⟩))
    | _ => none
  | .deinit pointer =>
    match pool.objects pointer with
    | some ⟨0,_⟩ => some (pool.perform (Signer.deinit S pointer) fun _ pool => pool.setObject pointer none)
    | _ => none
  | .enter pointer =>
    match pool.objects pointer with
    | some ⟨_+1,signer⟩ => some (pool.perform (Signer.uniffiClonePointer S pointer) fun own pool =>
        pool.setCalls own (signer::pool.calls own))
    | _ => none
  | .leave pointer call =>
    if call < (pool.calls pointer).length then
      some (pool.perform (freeSigner pointer) fun _ pool =>
        pool.setCalls pointer ((pool.calls pointer).eraseIdx call))
    else none

end

/-- The owners that the library counts are those who keep the signer, and all of them keep the same. -/
structure Pool.Live (pool : Pool) : Prop where
  standing : pool.crashed = false
  buffers : ∀ p, pool.world.buffers.cells p = none
  cells : ∀ p, ∃ n signer, pool.holders p = List.replicate n signer ∧
    pool.world.signers.cells p = if n = 0 then none else some (n,signer)

namespace Pool
variable {pool pool' : Pool} {p q : ℕ}

theorem holders_some {object : Object} (h : pool.objects p = some object) :
    pool.holders p = object.signer::pool.calls p := by
  rw [holders,h]
  rfl

theorem holders_none (h : pool.objects p = none) : pool.holders p = pool.calls p := by
  rw [holders,h]
  rfl

theorem perform_ok {α : Type} {x : Script α} {a : α} {w : World} (h : x.run pool.world = .ok a w)
    (after : α → Pool → Pool) : pool.perform x after = after a { pool with world := w } := by
  rw [perform,h]

theorem initial_live (buffers signers : ℕ → ℕ) : (initial buffers signers).Live where
  standing := rfl
  buffers _ := rfl
  cells _ := ⟨0,⟨""⟩,rfl,rfl⟩

namespace Live

/-- A step is about one pointer, and leaves the others as they are. -/
theorem step_at (h : pool.Live) (p : ℕ) (hstanding : pool'.crashed = pool.crashed)
    (hbuffers : pool'.world.buffers.cells = pool.world.buffers.cells)
    (hother : ∀ q, q ≠ p → pool'.objects q = pool.objects q ∧ pool'.calls q = pool.calls q ∧
      pool'.world.signers.cells q = pool.world.signers.cells q)
    (hself : ∃ n signer, pool'.holders p = List.replicate n signer ∧
      pool'.world.signers.cells p = if n = 0 then none else some (n,signer)) : pool'.Live where
  standing := hstanding.trans h.standing
  buffers q := by rw [hbuffers,h.buffers]
  cells q := by
    rcases eq_or_ne q p with rfl | hq
    · exact hself
    · obtain ⟨hobjects,hcalls,hcells⟩ := hother q hq
      rw [holders,hobjects,hcalls,hcells]
      exact h.cells q

/-- Whoever keeps a signer finds it, with as many owners as keep it. -/
theorem owns (h : pool.Live) {signer : Mobile.Signer} (hmem : signer ∈ pool.holders p) : ∃ n,
    pool.holders p = List.replicate (n+1) signer ∧ pool.world.Owns p (n+1) signer := by
  obtain ⟨n,signer',hholders,hcells⟩ := h.cells p
  rw [hholders,List.mem_replicate] at hmem
  obtain ⟨hn,rfl⟩ := hmem
  obtain ⟨m,rfl⟩ := Nat.exists_eq_succ_of_ne_zero hn
  exact ⟨m,hholders,hcells⟩

/-- Another reference to an object is no matter of the library's. -/
theorem setReferences (h : pool.Live) {object : Object} (hobject : pool.objects p = some object) (n : ℕ) :
    (pool.setObject p (some ⟨n,object.signer⟩)).Live := by
  refine h.step_at p rfl rfl (fun q hq => ⟨Function.update_of_ne hq _ _,rfl,rfl⟩) ?_
  have hself : (pool.setObject p (some ⟨n,object.signer⟩)).objects p = some ⟨n,object.signer⟩ :=
    Function.update_self ..
  obtain ⟨m,signer,hholders,hcells⟩ := h.cells p
  refine ⟨m,signer,?_,hcells⟩
  rw [holders_some hobject] at hholders
  rw [holders_some hself]
  exact hholders

/-- One of those who keep a signer gives it back. -/
theorem run_free (h : pool.Live) {signer : Mobile.Signer} {n : ℕ} (hholders : pool.holders p = List.replicate (n+1) signer) :
    ∃ w', (freeSigner p).run pool.world = .ok () w' ∧ w'.buffers = pool.world.buffers ∧ w'.signers.cells =
      Function.update pool.world.signers.cells p (if n = 0 then none else some (n,signer)) := by
  have hmem : signer ∈ pool.holders p := by
    rw [hholders]
    exact List.mem_cons_self
  obtain ⟨m,hholders',howns⟩ := h.owns hmem
  obtain rfl : m = n := by
    have hlength := congrArg List.length (hholders'.symm.trans hholders)
    simpa using hlength
  obtain ⟨w',hrun,hbuffers,hcells⟩ := run_freeSigner howns
  refine ⟨w',hrun,hbuffers,?_⟩
  rw [hcells]
  congr 1
  simp

/-- After it the others still keep the signer. -/
theorem freed (h : pool.Live) {signer : Mobile.Signer} {n : ℕ} {w' : World} {pool' : Pool}
    (hbuffers : w'.buffers = pool.world.buffers) (hcells : w'.signers.cells =
      Function.update pool.world.signers.cells p (if n = 0 then none else some (n,signer)))
    (hworld : pool'.world = w') (hstanding : pool'.crashed = pool.crashed)
    (hother : ∀ q, q ≠ p → pool'.objects q = pool.objects q ∧ pool'.calls q = pool.calls q)
    (hholders : pool'.holders p = List.replicate n signer) : pool'.Live := by
  refine h.step_at p hstanding (by rw [hworld,hbuffers]) (fun q hq => ?_) ?_
  · obtain ⟨hobjects,hcalls⟩ := hother q hq
    rw [hworld,hcells,Function.update_of_ne hq]
    exact ⟨hobjects,hcalls,rfl⟩
  · refine ⟨n,signer,hholders,?_⟩
    rw [hworld,hcells,Function.update_self]

section
variable {C : MintCrates} {J : Money.PaymentJson} {S : Scaffolding C.Rng} (hdocumented : S.Documented C J)
include hdocumented

theorem step_make (h : pool.Live) {secret network : String} (hstep : step C S pool (.make secret network) = some pool') :
    pool'.Live := by
  rw [step] at hstep
  obtain ⟨⟨hfits,hcrosses⟩,hpool⟩ := Option.ite_none_right_eq_some.mp hstep
  cases hpool
  have hcall := fromSecret_delivers hdocumented pool.world secret network hfits
  -- a call that throws leaves memory as it was, and makes no object
  have hthrown : ∀ {thrown w'}, pool.world.Same w' → (∀ message, thrown ≠ .fatal message) →
      (Signer.fromSecret S secret network).run pool.world = .error thrown w' → ∀ after,
      (pool.perform (Signer.fromSecret S secret network) after).Live := by
    intro thrown w' hsame hfatal hrun after
    have hperform : pool.perform (Signer.fromSecret S secret network) after = { pool with world := w' } := by
      rw [perform,hrun]
      cases thrown with
      | fatal message => cases hfatal message rfl
      | _ => rfl
    rw [hperform]
    refine h.step_at 0 rfl hsame.buffers (fun q _ => ⟨rfl,rfl,by rw [hsame.signers]⟩) ?_
    change ∃ n signer, pool.holders 0 = List.replicate n signer ∧ w'.signers.cells 0 = _
    rw [hsame.signers]
    exact h.cells 0
  generalize Mobile.fromSecret C.toWalletCrates secret network = made at hcrosses hcall ⊢
  cases made with
  | ok signer =>
    obtain ⟨pointer,w',hrun,hfresh,hbuffers,hcells⟩ := hcall
    rw [perform_ok hrun]
    refine h.step_at pointer rfl hbuffers (fun q hq => ⟨Function.update_of_ne hq _ _,rfl,?_⟩) ⟨1,signer,?_,?_⟩
    · change w'.signers.cells q = _
      rw [hcells,Function.update_of_ne hq]
    · -- nobody kept a signer at a pointer that was not in use
      have hnobody : pool.holders pointer = [] := by
        obtain ⟨n,signer',hholders,hcell⟩ := h.cells pointer
        rw [hfresh] at hcell
        by_cases hn : n = 0
        · rw [hholders,hn,List.replicate_zero]
        · rw [if_neg hn] at hcell
          cases hcell
      have hcalls := (List.append_eq_nil_iff.mp hnobody).2
      rw [holders_some (Function.update_self ..)]
      exact congrArg (signer::·) hcalls
    · change w'.signers.cells pointer = _
      rw [hcells,Function.update_self]
      rfl
  | error stop =>
    cases stop with
    | err reason =>
      obtain ⟨w',hrun,hsame⟩ := hcall hcrosses
      exact hthrown hsame (by simp) hrun _
    | panic message =>
      obtain ⟨w',hrun,hsame⟩ := hcall
      exact hthrown hsame (by simp) hrun _
    | unfinished => exact hcrosses.elim

theorem step_deinit (h : pool.Live) (hstep : step C S pool (.deinit p) = some pool') : pool'.Live := by
  rw [step] at hstep
  split at hstep
  case h_2 => cases hstep
  case h_1 signer hobject =>
    cases hstep
    have hmem : signer ∈ pool.holders p := by
      rw [holders_some hobject]
      exact List.mem_cons_self
    obtain ⟨n,hholders,_⟩ := h.owns hmem
    obtain ⟨w',hrun,hbuffers,hcells⟩ := h.run_free hholders
    have hdeinit : (Signer.deinit S p).run pool.world = .ok () w' := run_forced hdocumented.initialized hrun
    rw [perform_ok hdeinit]
    refine h.freed hbuffers hcells rfl rfl (fun q hq => ⟨Function.update_of_ne hq _ _,rfl⟩) ?_
    rw [holders_none (Function.update_self ..)]
    rw [holders_some hobject,List.replicate_succ] at hholders
    exact (List.cons_inj_right _).mp hholders

theorem step_enter (h : pool.Live) (hstep : step C S pool (.enter p) = some pool') : pool'.Live := by
  rw [step] at hstep
  split at hstep
  case h_2 => cases hstep
  case h_1 references signer hobject =>
    cases hstep
    have hmem : signer ∈ pool.holders p := by
      rw [holders_some hobject]
      exact List.mem_cons_self
    obtain ⟨n,hholders,howns⟩ := h.owns hmem
    obtain ⟨w',hrun,hbuffers,hcells⟩ := run_cloneSigner howns
    have hclone : (Signer.uniffiClonePointer S p).run pool.world = .ok p w' := run_forced hdocumented.initialized hrun
    rw [perform_ok hclone]
    refine h.step_at p rfl (congrArg Heap.cells hbuffers) (fun q hq => ⟨rfl,Function.update_of_ne hq _ _,?_⟩)
      ⟨n+2,signer,?_,?_⟩
    · change w'.signers.cells q = _
      rw [hcells,Function.update_of_ne hq]
    · change (pool.objects p).toList.map Object.signer ++ Function.update pool.calls p (signer::pool.calls p) p = _
      rw [holders_some hobject] at hholders
      rw [Function.update_self,hobject,List.replicate_succ,← hholders]
      rfl
    · change w'.signers.cells p = _
      rw [hcells,Function.update_self]
      rfl

omit hdocumented in
theorem step_leave (h : pool.Live) {call : ℕ} (hstep : step C S pool (.leave p call) = some pool') : pool'.Live := by
  rw [step] at hstep
  obtain ⟨hcall,hpool⟩ := Option.ite_none_right_eq_some.mp hstep
  cases hpool
  obtain ⟨n,signer,hholders,_⟩ := h.cells p
  -- the call is one of the holders, behind the object
  have hindex : (pool.objects p).toList.length+call < n := by
    have hlength := congrArg List.length hholders
    rw [holders,List.length_append,List.length_map,List.length_replicate] at hlength
    omega
  obtain ⟨m,rfl⟩ := Nat.exists_eq_succ_of_ne_zero (Nat.ne_zero_of_lt hindex)
  obtain ⟨w',hrun,hbuffers,hcells⟩ := h.run_free hholders
  rw [perform_ok hrun]
  refine h.freed hbuffers hcells rfl rfl (fun q hq => ⟨rfl,Function.update_of_ne hq _ _⟩) ?_
  have herased := congrArg (List.eraseIdx · ((pool.objects p).toList.length+call)) hholders
  simp only [List.eraseIdx_replicate,if_pos hindex,Nat.add_one_sub_one] at herased
  rw [← herased,holders,holders,List.eraseIdx_append_of_length_le (by simp)]
  simp [setCalls]

/-- Every step keeps the owners. -/
theorem step_live (h : pool.Live) (e : Event) (hstep : step C S pool e = some pool') : pool'.Live := by
  cases e with
  | make secret network => exact h.step_make hdocumented hstep
  | retain p =>
    rw [step] at hstep
    split at hstep
    case h_2 => cases hstep
    case h_1 n signer hobject =>
      cases hstep
      exact h.setReferences hobject (n+2)
  | release p =>
    rw [step] at hstep
    split at hstep
    case h_2 => cases hstep
    case h_1 n signer hobject =>
      cases hstep
      exact h.setReferences hobject n
  | deinit p => exact h.step_deinit hdocumented hstep
  | enter p => exact h.step_enter hdocumented hstep
  | leave p call => exact h.step_leave hstep

end

end Live
end Pool

section
variable {C : MintCrates} {J : Money.PaymentJson} {S : Scaffolding C.Rng}

/-- However the threads of the app interleave, no call meets a signer that is gone. A signer is wiped
exactly when its object and every call on it are done; until then the object can be called, and each
call reads the signer of the object it was made on. The buffers the secrets come in are all given back. -/
theorem signers_live (h : S.Documented C J) {buffers signers : ℕ → ℕ} {events : List Event} {pool : Pool}
    (hrun : Runs.run (step C S) events (.initial buffers signers) = some pool) :
    pool.crashed = false ∧ (∀ p, pool.world.buffers.cells p = none) ∧
    (∀ p, pool.world.signers.cells p = none ↔ pool.objects p = none ∧ pool.calls p = []) ∧
    (∀ p object, pool.objects p = some object →
      pool.world.Owns p ((pool.calls p).length+1) object.signer) ∧
    ∀ p signer, signer ∈ pool.calls p → (loadSigner p).run pool.world = .ok signer pool.world := by
  have hlive : pool.Live := Runs.run_invariant (fun _ e _ hlive => hlive.step_live h e)
    (Pool.initial_live buffers signers) hrun
  refine ⟨hlive.standing,hlive.buffers,fun p => ?_,fun p object hobject => ?_,fun p signer hcall => ?_⟩
  · obtain ⟨n,signer,hholders,hcells⟩ := hlive.cells p
    have hnobody : pool.holders p = [] ↔ pool.objects p = none ∧ pool.calls p = [] := by
      rw [Pool.holders,List.append_eq_nil_iff,List.map_eq_nil_iff,Option.toList_eq_nil_iff]
    rw [← hnobody,hholders,hcells,List.replicate_eq_nil_iff]
    simp
  · have hmem : object.signer ∈ pool.holders p := by
      rw [Pool.holders_some hobject]
      exact List.mem_cons_self
    obtain ⟨n,hholders,howns⟩ := hlive.owns hmem
    have hlength := congrArg List.length hholders
    rw [Pool.holders_some hobject,List.length_cons,List.length_replicate] at hlength
    rwa [hlength]
  · obtain ⟨n,_,howns⟩ := hlive.owns (List.mem_append_right _ hcall)
    change loadSigner p pool.world = _
    simp only [loadSigner,show pool.world.signers.cells p = _ from howns]

end

open Recorded in
/-- A call that outlives the last reference to its signer. -/
theorem signers_live_outlived : ∃ pool,
    Runs.run (step mintCrates scaffolding) [.make phrase "mainnet",.enter 8,.release 8,.deinit 8]
      (.initial Nat.succ fun _ => 8) = some pool ∧
    pool.objects 8 = none ∧ (loadSigner 8).run pool.world = .ok ⟨phrase⟩ pool.world := by
  have hends : (Runs.run (step mintCrates scaffolding) [.make phrase "mainnet",.enter 8,.release 8,.deinit 8]
      (.initial Nat.succ fun _ => 8)).map (fun pool => ((pool.objects 8).isNone,pool.calls 8)) =
        some (true,[⟨phrase⟩]) := by
    decide +kernel
  obtain ⟨pool,hrun,hpool⟩ := Option.map_eq_some_iff.mp hends
  obtain ⟨hobject,hcalls⟩ := Prod.mk.inj hpool
  obtain ⟨_,_,_,_,hread⟩ := signers_live scaffolding_documented hrun
  refine ⟨pool,hrun,Option.isNone_iff_eq_none.mp hobject,hread 8 ⟨phrase⟩ ?_⟩
  rw [hcalls]
  exact List.mem_singleton_self _

end ZkasSigner.Swift
