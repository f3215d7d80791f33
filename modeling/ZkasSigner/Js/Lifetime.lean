import ZkasSigner.Foundation.Runs
import ZkasSigner.Js.Page

/-! The objects of a page over its runs. An object reads what was last put in it until it is freed, and nothing
that the library holds is freed twice or lost. -/
namespace ZkasSigner.Js
open Foundation Foundation.Text Foundation.Script

/-- The library's object at `ptr` is one that object `i` of the page keeps. -/
def Page.Keeps (page : Page) (i ptr : ℕ) : Prop :=
  (∃ wrapper, page.wrappers i = some wrapper ∧ wrapper.ptr = ptr ∧ ptr ≠ 0) ∨ page.registry i = some ptr

/-- Every object of the page finds its texts in the library, nothing is kept twice, and what is registered
is all there is. -/
structure Page.Live (R : Runtime) (page : Page) : Prop where
  sound : page.world.memory.Sound
  texts : ∀ {i wrapper}, page.wrappers i = some wrapper → wrapper.ptr ≠ 0 →
    page.world.texts wrapper.ptr = some wrapper.texts
  own : ∀ {i wrapper ptr}, page.wrappers i = some wrapper → page.registry i = some ptr → ptr = wrapper.ptr
  registered : ∀ {i ptr}, page.registry i = some ptr → (page.world.texts ptr).isSome = true
  apart : ∀ {i j ptr}, page.Keeps i ptr → page.Keeps j ptr → i = j
  all : R.finalizes = true → ∀ {ptr}, (page.world.texts ptr).isSome = true → ∃ i, page.registry i = some ptr
  fresh : ∀ {i}, page.created ≤ i → page.wrappers i = none ∧ page.registry i = none

namespace Page
variable {R : Runtime} {page page' : Page}

namespace Live

theorem kept (h : page.Live R) {i ptr : ℕ} (hkeeps : page.Keeps i ptr) :
    (page.world.texts ptr).isSome = true := by
  rcases hkeeps with ⟨wrapper,hwrapper,rfl,hptr⟩ | hregistered
  · rw [h.texts hwrapper hptr]
    rfl
  · exact h.registered hregistered

/-- What is freed is there to be freed. -/
theorem freed (h : page.Live R) {i ptr : ℕ} (hkeeps : page.Keeps i ptr) : ∃ w', (freeObject ptr).run page.world = .ok () w' ∧
    w'.memory.Sound ∧ w'.handles.objects.cells = Function.update page.world.handles.objects.cells ptr none := by
  have hkept := h.kept hkeeps
  rw [World.texts_isSome] at hkept
  obtain ⟨object,hobject⟩ := Option.isSome_iff_exists.mp hkept
  obtain ⟨w',hrun,hmemory,_,hobjects⟩ := run_freeObject hobject
  refine ⟨w',hrun,?_,hobjects⟩
  rw [hmemory]
  exact h.sound

theorem object (h : page.Live R) {i : ℕ} {wrapper : Wrapper} (hwrapper : page.wrappers i = some wrapper)
    (hptr : wrapper.ptr ≠ 0) : ∃ borrow, page.world.handles.objects.cells wrapper.ptr = some ⟨borrow,wrapper.texts⟩ := by
  obtain ⟨⟨borrow,texts⟩,hcell,rfl⟩ := Option.map_eq_some_iff.mp (h.texts hwrapper hptr)
  exact ⟨borrow,hcell⟩

theorem initial (externrefs objects : ℕ → ℕ) : (Page.initial externrefs objects).Live R where
  sound := World.initial_sound externrefs objects
  texts := nofun
  own := nofun
  registered := nofun
  apart {i j ptr} hi _ := by
    rcases hi with ⟨_,hwrapper,_⟩ | hregistered
    · cases hwrapper
    · cases hregistered
  all _ {ptr} hcell := by cases hcell
  fresh _ := ⟨rfl,rfl⟩

/-- The same objects are there, with the texts that the page goes by. -/
theorem carry (h : page.Live R) (hsound : page'.world.memory.Sound)
    (htexts : ∀ ptr, (page'.world.texts ptr).isSome = (page.world.texts ptr).isSome)
    (hregistry : page'.registry = page.registry) (hcreated : page'.created = page.created)
    (hwrappers : ∀ i wrapper', page'.wrappers i = some wrapper' →
      (∃ wrapper, page.wrappers i = some wrapper ∧ wrapper'.ptr = wrapper.ptr) ∧
      (wrapper'.ptr ≠ 0 → page'.world.texts wrapper'.ptr = some wrapper'.texts)) : page'.Live R := by
  have hkeeps : ∀ {i ptr}, page'.Keeps i ptr → page.Keeps i ptr := by
    rintro i ptr (⟨wrapper',hwrapper',rfl,hptr⟩ | hregistered)
    · obtain ⟨⟨wrapper,hwrapper,heq⟩,_⟩ := hwrappers i wrapper' hwrapper'
      exact .inl ⟨wrapper,hwrapper,heq.symm,hptr⟩
    · rw [hregistry] at hregistered
      exact .inr hregistered
  refine ⟨hsound,fun hwrapper hptr => (hwrappers _ _ hwrapper).2 hptr,?own,?registered,?apart,?all,?fresh⟩
  case own =>
    intro i wrapper' ptr hwrapper' hregistered
    obtain ⟨⟨wrapper,hwrapper,heq⟩,_⟩ := hwrappers i wrapper' hwrapper'
    rw [hregistry] at hregistered
    rw [heq]
    exact h.own hwrapper hregistered
  case registered =>
    intro i ptr hregistered
    rw [hregistry] at hregistered
    rw [htexts]
    exact h.registered hregistered
  case apart =>
    intro i j ptr hi hj
    exact h.apart (hkeeps hi) (hkeeps hj)
  case all =>
    intro hfinalizes ptr hcell
    rw [htexts] at hcell
    rw [hregistry]
    exact h.all hfinalizes hcell
  case fresh =>
    intro i hi
    rw [hcreated] at hi
    obtain ⟨hwrapper,hregistered⟩ := h.fresh hi
    refine ⟨Option.eq_none_iff_forall_ne_some.mpr fun wrapper' hwrapper' => ?_,hregistry ▸ hregistered⟩
    obtain ⟨⟨wrapper,hsome,_⟩,_⟩ := hwrappers i wrapper' hwrapper'
    cases hwrapper.symm.trans hsome

/-- The library's objects have the texts they had. -/
theorem world (h : page.Live R) {w : World} (hsound : w.memory.Sound) (htexts : w.texts = page.world.texts) :
    Page.Live R { page with world := w } := by
  refine h.carry hsound (fun ptr => by rw [htexts]) rfl rfl fun i wrapper hwrapper => ?_
  refine ⟨⟨wrapper,hwrapper,rfl⟩,fun hptr => ?_⟩
  rw [htexts]
  exact h.texts hwrapper hptr

theorem thrown (h : page.Live R) {thrown e : Thrown} {w : World} (hrefused : Refused page.world thrown e w) :
    Page.Live R { page with world := w } :=
  h.world hrefused.2.1 (by rw [World.texts,hrefused.2.2]; rfl)

theorem trapped (h : page.Live R) {e : Thrown} {w : World} (htrap : Trapped page.world e w) :
    Page.Live R { page with world := w } :=
  have hrefused : Refused page.world .trap e w := htrap
  h.thrown hrefused

theorem same (h : page.Live R) {w : World} (hsame : page.world.Same w) : Page.Live R { page with world := w } :=
  h.world hsame.sound (by rw [World.texts,hsame.objects]; rfl)

/-- An object that stays borrowed keeps its texts. -/
theorem unread (h : page.Live R) {ptr : ℕ} {object : Object} (hobject : page.world.handles.objects.cells ptr = some object)
    {e : Thrown} {w : World} (hunread : Unread page.world ptr object e w) : Page.Live R { page with world := w } := by
  rcases hunread with hinterrupted | ⟨_,hrefused⟩
  · refine h.world hinterrupted.sound ((World.texts_update hinterrupted.objects).trans ?_)
    rw [Function.update_eq_self_iff]
    exact (congrArg (Option.map Object.texts) hobject).symm
  · exact h.thrown hrefused

theorem keeps_unique (h : page.Live R) {i p q : ℕ} (hp : page.Keeps i p) (hq : page.Keeps i q) : p = q := by
  rcases hp with ⟨wrapper,hwrapper,rfl,_⟩ | hp
  · rcases hq with ⟨wrapper',hwrapper',rfl,_⟩ | hq
    · rw [Option.some.inj (hwrapper.symm.trans hwrapper')]
    · exact (h.own hwrapper hq).symm
  · rcases hq with ⟨wrapper,hwrapper,rfl,_⟩ | hq
    · exact h.own hwrapper hp
    · exact Option.some.inj (hp.symm.trans hq)

theorem lt_created (h : page.Live R) {i ptr : ℕ} (hkeeps : page.Keeps i ptr) : i < page.created := by
  by_contra hle
  obtain ⟨hwrapper,hregistered⟩ := h.fresh (Nat.not_lt.mp hle)
  rcases hkeeps with ⟨wrapper,hsome,_⟩ | hsome
  · cases hwrapper.symm.trans hsome
  · cases hregistered.symm.trans hsome

/-- What an object of the page keeps is given back, and the others find theirs as before. -/
theorem release (h : page.Live R) {i ptr : ℕ} (hkeeps : page.Keeps i ptr) (hsound : page'.world.memory.Sound)
    (hobjects : page'.world.handles.objects.cells = Function.update page.world.handles.objects.cells ptr none)
    (hregistry : page'.registry = Function.update page.registry i none) (hcreated : page'.created = page.created)
    (hself : ∀ wrapper, page'.wrappers i = some wrapper → wrapper.ptr = 0)
    (hother : ∀ j, j ≠ i → page'.wrappers j = page.wrappers j) : page'.Live R := by
  have hgone : ∀ {q}, ¬ page'.Keeps i q := by
    rintro q (⟨wrapper,hwrapper,rfl,hq⟩ | hregistered)
    · exact hq (hself wrapper hwrapper)
    · rw [hregistry,Function.update_self] at hregistered
      cases hregistered
  have hrest : ∀ {j q}, page'.Keeps j q → j ≠ i ∧ page.Keeps j q := by
    intro j q hj
    have hne : j ≠ i := by
      rintro rfl
      exact hgone hj
    refine ⟨hne,?_⟩
    rwa [Keeps,hother j hne,hregistry,Function.update_of_ne hne] at hj
  have htexts : page'.world.texts = Function.update page.world.texts ptr none := World.texts_update hobjects
  -- no other object keeps what is given back
  have hcell : ∀ {j q}, page'.Keeps j q → page'.world.texts q = page.world.texts q := by
    intro j q hj
    obtain ⟨hne,hj⟩ := hrest hj
    rw [htexts,Function.update_of_ne]
    rintro rfl
    exact hne (h.apart hj hkeeps)
  refine ⟨hsound,?texts,?own,?registered,?apart,?all,?fresh⟩
  case texts =>
    intro j wrapper hwrapper hptr
    have hj : page'.Keeps j wrapper.ptr := .inl ⟨wrapper,hwrapper,rfl,hptr⟩
    rw [hother j (hrest hj).1] at hwrapper
    rw [hcell hj]
    exact h.texts hwrapper hptr
  case own =>
    intro j wrapper q hwrapper hregistered
    have hj : page'.Keeps j q := .inr hregistered
    obtain ⟨hne,_⟩ := hrest hj
    rw [hother j hne] at hwrapper
    rw [hregistry,Function.update_of_ne hne] at hregistered
    exact h.own hwrapper hregistered
  case registered =>
    intro j q hregistered
    have hj : page'.Keeps j q := .inr hregistered
    rw [hcell hj]
    exact h.kept (hrest hj).2
  case apart =>
    intro j k q hj hk
    exact h.apart (hrest hj).2 (hrest hk).2
  case all =>
    intro hfinalizes q hq
    have hne : q ≠ ptr := by
      rintro rfl
      rw [htexts,Function.update_self] at hq
      cases hq
    rw [htexts,Function.update_of_ne hne] at hq
    obtain ⟨j,hj⟩ := h.all hfinalizes hq
    refine ⟨j,?_⟩
    rw [hregistry,Function.update_of_ne]
    · exact hj
    · rintro rfl
      exact hne (h.keeps_unique (.inr hj) hkeeps)
  case fresh =>
    intro j hj
    rw [hcreated] at hj
    have hne : j ≠ i := by
      rintro rfl
      exact absurd (h.lt_created hkeeps) (Nat.not_lt.mpr hj)
    rw [hother j hne,hregistry,Function.update_of_ne hne]
    exact h.fresh hj

/-- A new object of the page keeps a new object of the library's. -/
theorem made (h : page.Live R) {texts : String × String} {ptr : ℕ} {w : World} (hmade : Made page.world texts ptr w) :
    (Page.wrap { page with world := w } R ptr (some texts)).Live R := by
  set page' := Page.wrap { page with world := w } R ptr (some texts)
  obtain ⟨_,hempty,hsound,_,_,hobjects⟩ := hmade
  have hnew : page'.wrappers page.created = some ⟨ptr,texts,true⟩ := Function.update_self ..
  have hregistered : page'.registry page.created = if R.finalizes then some ptr else none := Function.update_self ..
  have hother : ∀ {j}, j ≠ page.created → page'.wrappers j = page.wrappers j ∧ page'.registry j = page.registry j :=
    fun hj => ⟨Function.update_of_ne hj ..,Function.update_of_ne hj ..⟩
  have htexts : page'.world.texts = Function.update page.world.texts ptr (some texts) := World.texts_update hobjects
  have hunused : page.world.texts ptr = none := congrArg (Option.map Object.texts) hempty
  -- the new pointer is kept by the new object, and nothing else has changed
  have hkeeps : ∀ {j q}, page'.Keeps j q → j = page.created ∧ q = ptr ∨ j ≠ page.created ∧ q ≠ ptr ∧ page.Keeps j q := by
    intro j q hq
    rcases eq_or_ne j page.created with rfl | hj
    · refine .inl ⟨rfl,?_⟩
      rcases hq with ⟨wrapper,hwrapper,rfl,_⟩ | hq
      · rw [← Option.some.inj (hnew.symm.trans hwrapper)]
      · rw [hregistered] at hq
        split at hq
        · exact (Option.some.inj hq).symm
        · cases hq
    · rw [Keeps,(hother hj).1,(hother hj).2] at hq
      refine .inr ⟨hj,?_,hq⟩
      rintro rfl
      have hcell := h.kept hq
      rw [hunused] at hcell
      cases hcell
  refine ⟨hsound,?texts,?own,?registered,?apart,?all,?fresh⟩
  case texts =>
    intro j wrapper hwrapper hne
    rcases hkeeps (.inl ⟨wrapper,hwrapper,rfl,hne⟩) with ⟨rfl,_⟩ | ⟨hj,hold,_⟩
    · rw [← Option.some.inj (hnew.symm.trans hwrapper),htexts,Function.update_self]
    · rw [(hother hj).1] at hwrapper
      rw [htexts,Function.update_of_ne hold]
      exact h.texts hwrapper hne
  case own =>
    intro j wrapper q hwrapper hq
    rcases hkeeps (.inr hq) with ⟨rfl,rfl⟩ | ⟨hj,_,_⟩
    · rw [← Option.some.inj (hnew.symm.trans hwrapper)]
    · rw [(hother hj).1] at hwrapper
      rw [(hother hj).2] at hq
      exact h.own hwrapper hq
  case registered =>
    intro j q hq
    rcases hkeeps (.inr hq) with ⟨_,rfl⟩ | ⟨_,hold,hq⟩
    · rw [htexts,Function.update_self]
      rfl
    · rw [htexts,Function.update_of_ne hold]
      exact h.kept hq
  case apart =>
    intro j k q hj hk
    rcases hkeeps hj with ⟨rfl,rfl⟩ | ⟨_,hold,hj⟩
    · rcases hkeeps hk with ⟨rfl,_⟩ | ⟨_,hold,_⟩
      · rfl
      · exact absurd rfl hold
    · rcases hkeeps hk with ⟨_,rfl⟩ | ⟨_,_,hk⟩
      · exact absurd rfl hold
      · exact h.apart hj hk
  case all =>
    intro hfinalizes q hq
    rw [htexts] at hq
    rcases eq_or_ne q ptr with rfl | hne
    · exact ⟨page.created,by rw [hregistered,if_pos hfinalizes]⟩
    · rw [Function.update_of_ne hne] at hq
      obtain ⟨j,hj⟩ := h.all hfinalizes hq
      have hjc : j ≠ page.created := (h.lt_created (.inr hj)).ne
      exact ⟨j,(hother hjc).2.trans hj⟩
  case fresh =>
    intro j hj
    have hjc : page.created < j := hj
    rw [(hother hjc.ne').1,(hother hjc.ne').2]
    exact h.fresh hjc.le

section
variable {C : GlueCrates} {J : Money.PaymentJson} {X : Exports C.Rng} (hA : R.allocator.Documented)
  (hdocumented : X.Documented C J)

include hA hdocumented in
theorem step_make (h : page.Live R) {making : Making C.Rng} (hstep : step C R X page (.make making) = some page') :
    page'.Live R := by
  have hcall := making.call_delivers hA hdocumented h.sound
  rw [step] at hstep
  generalize making.made C = made at hstep hcall
  cases made with
  | ok texts =>
    cases hstep
    rcases perform_cases (hcall.ok rfl) fun ptr page => page.wrap R ptr (some texts) with
      ⟨ptr,w,hmade,hpage⟩ | ⟨e,w,htrap,hpage⟩
    · exact hpage ▸ h.made hmade
    · exact hpage ▸ h.trapped htrap
  | error stop =>
    cases stop with
    | err reason =>
      cases hstep
      rcases perform_cases (hcall.err rfl) fun ptr page => page.wrap R ptr none with
        ⟨_,_,hnever,_⟩ | ⟨e,w,htrap | ⟨_,hsame⟩,hpage⟩
      · exact hnever.elim
      · exact hpage ▸ h.trapped htrap
      · exact hpage ▸ h.same hsame
    | panic message =>
      cases hstep
      rcases perform_cases (hcall.panic rfl) fun ptr page => page.wrap R ptr none with
        ⟨_,_,hnever,_⟩ | ⟨e,w,htrap,hpage⟩
      · exact hnever.elim
      · exact hpage ▸ h.trapped htrap
    | unfinished => cases hstep

include hA in
theorem step_get (h : page.Live R) {i : ℕ} {field : Field} (hstep : step C R X page (.get i field) = some page') :
    page'.Live R := by
  obtain ⟨ptr,texts,hwrapper,rfl⟩ := reached_eq_some.mp hstep
  rcases eq_or_ne ptr 0 with rfl | hptr
  · rw [perform_error page (run_getter_null hA field.read)]
    exact h
  · obtain ⟨borrow,hobject⟩ := h.object hwrapper hptr
    rcases perform_cases (getter_ends hA h.sound hobject field.read) fun _ page => page with
      ⟨_,w,⟨_,hsame⟩,hpage⟩ | ⟨e,w,hunread,hpage⟩
    · exact hpage ▸ h.same hsame
    · exact hpage ▸ h.unread hobject hunread

/-- An object of the page with other texts, and the library's object with the same. -/
theorem stored (h : page.Live R) {i ptr : ℕ} {texts texts' : String × String} {w : World}
    (hwrapper : page.wrappers i = some ⟨ptr,texts,true⟩) (hptr : ptr ≠ 0) (hstored : Stored page.world ptr texts' w) :
    (Page.setWrapper { page with world := w } i (some ⟨ptr,texts',true⟩)).Live R := by
  have htexts : w.texts = Function.update page.world.texts ptr (some texts') := World.texts_update hstored.objects
  refine h.carry hstored.sound (fun q => ?_) rfl rfl fun j wrapper hj => ?_
  · change (w.texts q).isSome = _
    rcases eq_or_ne q ptr with rfl | hne
    · rw [htexts,Function.update_self,h.texts hwrapper hptr]
      rfl
    · rw [htexts,Function.update_of_ne hne]
  · change Function.update page.wrappers i (some ⟨ptr,texts',true⟩) j = some wrapper at hj
    change _ ∧ (wrapper.ptr ≠ 0 → w.texts wrapper.ptr = some wrapper.texts)
    rw [htexts]
    rcases eq_or_ne j i with rfl | hne
    · rw [Function.update_self] at hj
      cases hj
      exact ⟨⟨_,hwrapper,rfl⟩,fun _ => Function.update_self ..⟩
    · rw [Function.update_of_ne hne] at hj
      refine ⟨⟨wrapper,hj,rfl⟩,fun hne₀ => ?_⟩
      rw [Function.update_of_ne]
      · exact h.texts hj hne₀
      · intro heq
        exact hne (h.apart (.inl ⟨wrapper,hj,heq,hptr⟩) (.inl ⟨_,hwrapper,rfl,hptr⟩))

include hA in
theorem step_set (h : page.Live R) {i : ℕ} {field : Field} {arg : JsString}
    (hstep : step C R X page (.set i field arg) = some page') : page'.Live R := by
  obtain ⟨ptr,texts,hwrapper,rfl⟩ := reached_eq_some.mp hstep
  rcases eq_or_ne ptr 0 with rfl | hptr
  · rcases perform_cases (setter_null hA h.sound field arg)
        fun _ page => page.setWrapper i (some ⟨0,field.write (wellFormed arg) texts,true⟩) with
      ⟨_,_,hnever,_⟩ | ⟨e,w,htrap | hrefused,hpage⟩
    · exact hnever.elim
    · exact hpage ▸ h.trapped htrap
    · exact hpage ▸ h.thrown hrefused
  · obtain ⟨borrow,hobject⟩ := h.object hwrapper hptr
    rcases perform_cases (setter_ends hA h.sound hobject field arg)
        fun _ page => page.setWrapper i (some ⟨ptr,field.write (wellFormed arg) texts,true⟩) with
      ⟨_,w,hstored,hpage⟩ | ⟨e,w,htrap | ⟨_,hrefused⟩,hpage⟩
    · exact hpage ▸ h.stored hwrapper hptr hstored
    · exact hpage ▸ h.trapped htrap
    · exact hpage ▸ h.thrown hrefused

theorem step_free (h : page.Live R) {i : ℕ} (hstep : step C R X page (.free i) = some page') : page'.Live R := by
  obtain ⟨ptr,texts,hwrapper,rfl⟩ := reached_eq_some.mp hstep
  rcases eq_or_ne ptr 0 with rfl | hptr
  · -- it was freed before: its pointer is gone, and it is not registered any more
    have hrun : (freeObject 0).run page.world = .error nullPointer page.world := rfl
    have hunregistered : page.registry i = none := by
      by_contra hregistered
      obtain ⟨ptr,hptr⟩ := Option.ne_none_iff_exists'.mp hregistered
      have hkept := h.registered hptr
      rw [h.own hwrapper hptr,World.texts_isSome,Heap.null] at hkept
      cases hkept
    have hsame : page.destroyIntoRaw i ⟨0,texts,true⟩ = page := by
      rw [destroyIntoRaw,Page.setWrapper,unregister,Function.update_eq_self_iff.mpr hwrapper.symm]
      change { page with registry := Function.update page.registry i none } = page
      rw [Function.update_eq_self_iff.mpr hunregistered.symm]
    rw [hsame,perform_error page hrun]
    exact h
  · have hkeeps : page.Keeps i ptr := .inl ⟨_,hwrapper,rfl,hptr⟩
    obtain ⟨w,hrun,hsound,hobjects⟩ := h.freed hkeeps
    rw [perform_ok (page.destroyIntoRaw i ⟨ptr,texts,true⟩) hrun]
    refine h.release hkeeps hsound hobjects rfl rfl (fun wrapper hself => ?_) fun j hj => Function.update_of_ne hj ..
    change Function.update page.wrappers i (some ⟨0,texts,true⟩) i = some wrapper at hself
    rw [Function.update_self] at hself
    rw [← Option.some.inj hself]

theorem step_finalize (h : page.Live R) {i : ℕ} (hstep : step C R X page (.finalize i) = some page') : page'.Live R := by
  rw [step] at hstep
  split at hstep
  case h_2 => cases hstep
  case h_1 ptr hwrapper hregistered =>
    cases hstep
    obtain ⟨w,hrun,hsound,hobjects⟩ := h.freed (.inr hregistered)
    rw [perform_ok (page.unregister i) hrun]
    refine h.release (.inr hregistered) hsound hobjects rfl rfl (fun wrapper hself => ?_) fun _ _ => rfl
    cases hwrapper.symm.trans hself

/-- An object the page or the runtime has lost is in nobody's way. -/
theorem setWrapper (h : page.Live R) {i : ℕ} {wrapper : Wrapper} (hwrapper : page.wrappers i = some wrapper)
    (left : Option Wrapper) (hleft : ∀ v, left = some v → v.ptr = wrapper.ptr ∧ v.texts = wrapper.texts) :
    (page.setWrapper i left).Live R := by
  refine h.carry h.sound (fun _ => rfl) rfl rfl fun j v hv => ?_
  change Function.update page.wrappers i left j = some v at hv
  change _ ∧ (v.ptr ≠ 0 → page.world.texts v.ptr = some v.texts)
  rcases eq_or_ne j i with rfl | hne
  · rw [Function.update_self] at hv
    obtain ⟨hptr,htexts⟩ := hleft v hv
    rw [hptr,htexts]
    exact ⟨⟨wrapper,hwrapper,rfl⟩,fun hne => h.texts hwrapper hne⟩
  · rw [Function.update_of_ne hne] at hv
    exact ⟨⟨v,hv,rfl⟩,fun hne => h.texts hv hne⟩

include hA hdocumented in
/-- Every step keeps what the objects of the page go by. -/
theorem step_live (h : page.Live R) (e : Event C.Rng) (hstep : step C R X page e = some page') : page'.Live R := by
  cases e with
  | make making => exact h.step_make hA hdocumented hstep
  | get i field => exact h.step_get hA hstep
  | set i field arg => exact h.step_set hA hstep
  | free i => exact h.step_free hstep
  | drop i =>
    obtain ⟨ptr,texts,hwrapper,rfl⟩ := reached_eq_some.mp hstep
    refine h.setWrapper hwrapper _ fun v hv => ?_
    cases hv
    exact ⟨rfl,rfl⟩
  | collect i =>
    rw [step] at hstep
    split at hstep
    case h_2 => cases hstep
    case h_1 ptr texts hwrapper =>
      cases hstep
      refine h.setWrapper hwrapper _ fun v hv => ?_
      cases hv
  | finalize i => exact h.step_finalize hstep

end

end Live
end Page

section
variable {C : GlueCrates} {J : Money.PaymentJson} {R : Runtime} {X : Exports C.Rng} {page page' : Page}

namespace Page

/-- The objects of the page after an event `e`: none is freed but by its own `free`, and new ones are not freed. -/
def Follows (page : Page) (e : Event C.Rng) (page' : Page) : Prop :=
  page.created ≤ page'.created ∧ ∀ i wrapper', page'.wrappers i = some wrapper' →
    (∃ wrapper, page.wrappers i = some wrapper ∧ (wrapper'.ptr = 0 ↔ wrapper.ptr = 0 ∨ e = .free i)) ∨
    page.created ≤ i ∧ wrapper'.ptr ≠ 0 ∧ e ≠ .free i

theorem follows_of_same {e : Event C.Rng} (he : ∀ i, e ≠ .free i) (hwrappers : page'.wrappers = page.wrappers)
    (hcreated : page'.created = page.created) : page.Follows e page' := by
  refine ⟨hcreated.ge,fun i wrapper hwrapper => .inl ⟨wrapper,?_,?_⟩⟩
  · rw [← hwrappers]
    exact hwrapper
  · rw [or_iff_left (he i)]

theorem follows_of_update {e : Event C.Rng} {i : ℕ} {wrapper : Wrapper} {left : Option Wrapper}
    (hwrapper : page.wrappers i = some wrapper)
    (hleft : ∀ v, left = some v → (v.ptr = 0 ↔ wrapper.ptr = 0 ∨ e = .free i)) (hother : ∀ j, j ≠ i → e ≠ .free j)
    (hwrappers : page'.wrappers = Function.update page.wrappers i left) (hcreated : page'.created = page.created) :
    page.Follows e page' := by
  refine ⟨hcreated.ge,fun j v hv => .inl ?_⟩
  rw [hwrappers] at hv
  rcases eq_or_ne j i with rfl | hne
  · rw [Function.update_self] at hv
    exact ⟨wrapper,hwrapper,hleft v hv⟩
  · rw [Function.update_of_ne hne] at hv
    exact ⟨v,hv,by rw [or_iff_left (hother j hne)]⟩

theorem follows_perform {α : Type} {e : Event C.Rng} {base : Page} {x : Script α} {after : α → Page → Page}
    (hthrown : ∀ w, page.Follows e { base with world := w }) (hdone : ∀ a w, page.Follows e (after a { base with world := w })) :
    page.Follows e (base.perform x after) := by
  cases hrun : x.run base.world with
  | ok a w => exact perform_ok base hrun after ▸ hdone a w
  | error _ w => exact perform_error base hrun after ▸ hthrown w

theorem Live.follows_make (hA : R.allocator.Documented) (hdocumented : X.Documented C J) (h : page.Live R)
    {making : Making C.Rng} (hstep : step C R X page (.make making) = some page') : page.Follows (.make making) page' := by
  have hcall := making.call_delivers hA hdocumented h.sound
  rw [step] at hstep
  generalize making.made C = made at hstep hcall
  have hwrapped : ∀ {w texts ptr}, (∀ t, texts = some t → ptr ≠ 0) →
      page.Follows (.make making) (Page.wrap { page with world := w } R ptr texts) := by
    intro w texts ptr hptr
    refine ⟨Nat.le_succ _,fun i wrapper' hwrapper' => ?_⟩
    change Function.update page.wrappers page.created _ i = some wrapper' at hwrapper'
    rcases eq_or_ne i page.created with rfl | hne
    · rw [Function.update_self] at hwrapper'
      obtain ⟨t,ht,rfl⟩ := Option.map_eq_some_iff.mp hwrapper'
      exact .inr ⟨le_refl _,hptr t ht,by rintro ⟨⟩⟩
    · rw [Function.update_of_ne hne] at hwrapper'
      exact .inl ⟨wrapper',hwrapper',by rw [or_iff_left (by rintro ⟨⟩)]⟩
  cases made with
  | ok texts =>
    cases hstep
    rcases perform_cases (hcall.ok rfl) fun ptr page => page.wrap R ptr (some texts) with
      ⟨ptr,w,hmade,hpage⟩ | ⟨e,w,htrap,hpage⟩
    · exact hpage ▸ hwrapped fun _ _ => hmade.notNull
    · exact hpage ▸ follows_of_same (by rintro _ ⟨⟩) rfl rfl
  | error stop =>
    have hmade : some (page.perform (making.call C R X) fun ptr page => page.wrap R ptr none) = some page' := by
      cases stop with
      | unfinished => cases hstep
      | _ => exact hstep
    cases hmade
    exact follows_perform (fun w => follows_of_same (by rintro _ ⟨⟩) rfl rfl) fun ptr w => hwrapped (by rintro _ ⟨⟩)

theorem Live.follows (hA : R.allocator.Documented) (hdocumented : X.Documented C J) (h : page.Live R) {e : Event C.Rng}
    (hstep : step C R X page e = some page') : page.Follows e page' := by
  cases e with
  | make making => exact h.follows_make hA hdocumented hstep
  | get i field =>
    obtain ⟨ptr,texts,hwrapper,rfl⟩ := reached_eq_some.mp hstep
    have hkept : ∀ w, page.Follows (.get i field : Event C.Rng) { page with world := w } :=
      fun w => follows_of_same (by rintro _ ⟨⟩) rfl rfl
    exact follows_perform hkept fun _ => hkept
  | set i field arg =>
    obtain ⟨ptr,texts,hwrapper,rfl⟩ := reached_eq_some.mp hstep
    refine follows_perform (fun w => follows_of_same (by rintro _ ⟨⟩) rfl rfl) fun _ w => ?_
    refine follows_of_update hwrapper (fun v hv => ?_) (by rintro _ _ ⟨⟩) rfl rfl
    cases hv
    rw [or_iff_left (by rintro ⟨⟩)]
  | free i =>
    obtain ⟨ptr,texts,hwrapper,rfl⟩ := reached_eq_some.mp hstep
    -- the pointer is gone before the library is called, so that it is whatever comes of the call
    have hfreed : ∀ w, page.Follows (.free i : Event C.Rng) { page.destroyIntoRaw i ⟨ptr,texts,true⟩ with world := w } := by
      refine fun w => follows_of_update hwrapper (fun v hv => ?_) (fun j hj => ?_) rfl rfl
      · cases hv
        exact iff_of_true rfl (.inr rfl)
      · rintro ⟨⟩
        exact hj rfl
    exact follows_perform hfreed fun _ => hfreed
  | drop i =>
    obtain ⟨ptr,texts,hwrapper,rfl⟩ := reached_eq_some.mp hstep
    refine follows_of_update hwrapper (fun v hv => ?_) (by rintro _ _ ⟨⟩) rfl rfl
    cases hv
    rw [or_iff_left (by rintro ⟨⟩)]
  | collect i =>
    rw [step] at hstep
    split at hstep
    case h_2 => cases hstep
    case h_1 ptr texts hwrapper =>
      cases hstep
      exact follows_of_update hwrapper (by rintro _ ⟨⟩) (by rintro _ _ ⟨⟩) rfl rfl
  | finalize i =>
    rw [step] at hstep
    split at hstep
    case h_2 => cases hstep
    case h_1 ptr hwrapper hregistered =>
      cases hstep
      have hkept : ∀ w, page.Follows (.finalize i : Event C.Rng) { page.unregister i with world := w } :=
        fun w => follows_of_same (by rintro _ ⟨⟩) rfl rfl
      exact follows_perform hkept fun _ => hkept

/-- Only an object that was made can be freed. -/
theorem Live.lt_of_free (h : page.Live R) {i : ℕ} (hstep : step C R X page (.free i) = some page') : i < page.created := by
  obtain ⟨ptr,texts,hwrapper,_⟩ := reached_eq_some.mp hstep
  by_contra hle
  cases hwrapper.symm.trans (h.fresh (Nat.not_lt.mp hle)).1

/-- After a run the objects without a pointer are those that were freed in it. -/
theorem run_follows (hA : R.allocator.Documented) (hdocumented : X.Documented C J) {externrefs objects : ℕ → ℕ}
    {events : List (Event C.Rng)} (hrun : Runs.run (step C R X) events (.initial externrefs objects) = some page) :
    page.Live R ∧
      (∀ i, .free i ∈ events → i < page.created) ∧
      ∀ i wrapper, page.wrappers i = some wrapper → (wrapper.ptr = 0 ↔ .free i ∈ events) := by
  induction events using List.reverseRecOn generalizing page with
  | nil =>
    rw [← Option.some.inj hrun]
    exact ⟨.initial externrefs objects,by rintro i ⟨⟩,by rintro i wrapper ⟨⟩⟩
  | append_singleton events e ih =>
    obtain ⟨before,hbefore,hstep⟩ := Runs.run_concat_eq_some.mp hrun
    obtain ⟨hlive,hmade,hfreed⟩ := ih hbefore
    obtain ⟨hcreated,hwrappers⟩ := hlive.follows hA hdocumented hstep
    refine ⟨hlive.step_live hA hdocumented e hstep,fun i hi => ?_,fun i wrapper' hwrapper' => ?_⟩
    · rcases List.mem_append.mp hi with hi | hi
      · exact (hmade i hi).trans_le hcreated
      · rw [← List.mem_singleton.mp hi] at hstep
        exact (hlive.lt_of_free hstep).trans_le hcreated
    · rw [List.mem_append,List.mem_singleton,eq_comm (b := e)]
      rcases hwrappers i wrapper' hwrapper' with ⟨wrapper,hwrapper,hptr⟩ | ⟨hnew,hptr,he⟩
      · rw [hptr,hfreed i wrapper hwrapper]
      · refine iff_of_false hptr ?_
        rintro (hi | hi)
        · exact absurd (hmade i hi) (Nat.not_lt.mpr hnew)
        · exact he hi

end Page

/-- Whatever the page does with its objects, and whenever the runtime collects the lost ones: an object reads the
texts that were last put in it until it is freed, and throws from then on. It can be set unless a trap has left it
borrowed. What the runtime has still to free is there to be freed, and where the runtime frees at all the library
holds nothing else. -/
theorem objects_live (hA : R.allocator.Documented) (h : X.Documented C J) {externrefs objects : ℕ → ℕ}
    {events : List (Event C.Rng)} (hrun : Runs.run (step C R X) events (.initial externrefs objects) = some page) :
    (∀ i wrapper, page.wrappers i = some wrapper → .free i ∉ events → ∃ borrow : UInt32,
      (∀ field : Field, Ends (getter R field.read wrapper.ptr) page.world (Text page.world (field.read wrapper.texts))
        (Unread page.world wrapper.ptr ⟨borrow,wrapper.texts⟩)) ∧
      ∀ (field : Field) arg, Ends (setter R field wrapper.ptr arg) page.world
        (fun _ => Stored page.world wrapper.ptr (field.write (wellFormed arg) wrapper.texts))
        fun e w' => Trapped page.world e w' ∨ borrow ≠ 0 ∧ Refused page.world borrowFail e w') ∧
    (∀ i wrapper, page.wrappers i = some wrapper → .free i ∈ events →
      (∀ field : Field, (getter R field.read wrapper.ptr).run page.world =
        .error (.error "null pointer passed to rust") page.world) ∧
      (∀ (field : Field) arg, Ends (setter R field wrapper.ptr arg) page.world (fun _ _ => False)
        fun e w' => Trapped page.world e w' ∨ Refused page.world (.error "null pointer passed to rust") e w') ∧
      (freeObject wrapper.ptr).run page.world = .error (.error "null pointer passed to rust") page.world) ∧
    (∀ i j ptr, page.Keeps i ptr → page.Keeps j ptr → i = j) ∧
    (∀ i ptr, page.registry i = some ptr → ∃ w', (freeObject ptr).run page.world = .ok () w' ∧
      w'.handles.objects.cells = Function.update page.world.handles.objects.cells ptr none) ∧
    (R.finalizes = true → ∀ ptr, (page.world.handles.objects.cells ptr).isSome = true ↔
      ∃ i, page.registry i = some ptr) := by
  obtain ⟨hlive,_,hfreed⟩ := Page.run_follows hA h hrun
  refine ⟨fun i wrapper hwrapper hfree => ?_,fun i wrapper hwrapper hfree => ?_,fun i j ptr => hlive.apart,
    fun i ptr hregistered => ?_,fun hfinalizes ptr => ?_⟩
  · have hptr : wrapper.ptr ≠ 0 := (hfreed i wrapper hwrapper).not.mpr hfree
    obtain ⟨borrow,hobject⟩ := hlive.object hwrapper hptr
    exact ⟨borrow,fun field => getter_ends hA hlive.sound hobject field.read,setter_ends hA hlive.sound hobject⟩
  · rw [(hfreed i wrapper hwrapper).mpr hfree]
    exact ⟨fun field => run_getter_null hA field.read,setter_null hA hlive.sound,rfl⟩
  · obtain ⟨w',hfree,_,hobjects⟩ := hlive.freed (.inr hregistered)
    exact ⟨w',hfree,hobjects⟩
  · rw [← World.texts_isSome]
    exact ⟨hlive.all hfinalizes,fun ⟨i,hregistered⟩ => hlive.registered hregistered⟩

end

open Recorded Money in
/-- A wallet whose address the page has replaced, and then lost. It stands where one that was freed had stood. -/
theorem objects_live_lost : ∃ page,
    Runs.run (step glueCrates .recorded exports) [.make (.newWallet (Utf16.ofString "mainnet") [.ok phraseKey]),.free 0,
      .make (.newWallet (Utf16.ofString "mainnet") [.ok phraseKey]),.set 1 .second (Utf16.ofString "mine"),.drop 1]
      (.initial Nat.succ fun _ => 8) = some page ∧
    (∃ borrow, Ends (getter .recorded Field.second.read 8) page.world (Text page.world "mine")
      (Unread page.world 8 ⟨borrow,hexCrate.encode phraseKey.val,"mine"⟩)) ∧
    (getter .recorded Field.second.read 0).run page.world = .error (.error "null pointer passed to rust") page.world ∧
    ∃ w', (freeObject 8).run page.world = .ok () w' := by
  have hends : (Runs.run (step glueCrates .recorded exports)
      [.make (.newWallet (Utf16.ofString "mainnet") [.ok phraseKey]),.free 0,
        .make (.newWallet (Utf16.ofString "mainnet") [.ok phraseKey]),.set 1 .second (Utf16.ofString "mine"),.drop 1]
      (.initial Nat.succ fun _ => 8)).map (fun page => ((page.wrappers 0).map Wrapper.ptr,
        (page.wrappers 1).map fun wrapper => (wrapper.ptr,wrapper.texts),page.registry 1)) =
        some (some 0,some (8,hexCrate.encode phraseKey.val,"mine"),some 8) := by
    decide +kernel
  obtain ⟨page,hrun,hpage⟩ := Option.map_eq_some_iff.mp hends
  obtain ⟨hfreed,hpage⟩ := Prod.mk.inj hpage
  obtain ⟨hwrapper,hregistered⟩ := Prod.mk.inj hpage
  obtain ⟨gone,hgone,hnull⟩ := Option.map_eq_some_iff.mp hfreed
  obtain ⟨wrapper,hwrapper,hfields⟩ := Option.map_eq_some_iff.mp hwrapper
  obtain ⟨hptr,htexts⟩ := Prod.mk.inj hfields
  obtain ⟨hread,hthrows,_,hfree,_⟩ := objects_live (R := .recorded) Allocator.bump_documented exports_documented hrun
  refine ⟨page,hrun,?_,?_,?_⟩
  · obtain ⟨borrow,hgets,_⟩ := hread 1 wrapper hwrapper (by simp)
    have hsecond := hgets .second
    rw [hptr,htexts] at hsecond
    exact ⟨borrow,hsecond⟩
  · obtain ⟨hgets,_⟩ := hthrows 0 gone hgone (by simp)
    have hsecond := hgets .second
    rwa [hnull] at hsecond
  · obtain ⟨w',hrun,_⟩ := hfree 1 8 hregistered
    exact ⟨w',hrun⟩

end ZkasSigner.Js
