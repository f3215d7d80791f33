import ZkasSigner.Js.Binding

/-! A page and its objects. Each keeps an object of the library's, until the page frees it or has lost it and
the runtime collects it. -/
namespace ZkasSigner.Js
open Foundation Foundation.Text Foundation.Script

/-! ### Setters -/

/-- The texts of an object: `mnemonic` and `address`, `address` and `signature_hex`, or `seed_hex` and `address`. -/
inductive Field where
  | first
  | second

def Field.read : Field → String × String → String
  | .first => Prod.fst
  | .second => Prod.snd

def Field.write (text : String) : Field → String × String → String × String
  | .first => fun texts => (text,texts.2)
  | .second => fun texts => (texts.1,text)

section
variable (R : Runtime)

/-- `__wbg_set_mnemonicwallet_mnemonic` and `__wbg_set_mnemonicwallet_address`, which all three classes call. -/
def storeField (field : Field) (ptr : ℕ) (arg : ℕ × ℕ) : Script Unit := do
  let object ← loadObject ptr
  -- a text that is refused stays in memory
  if object.borrow ≠ 0 then throw borrowFail
  else do
    let bytes ← takeOver R arg
    match decodeUtf8 bytes with
    | some text => storeObject ptr { object with texts := field.write text object.texts }
    | none => throw .undefined

def setter (field : Field) (ptr : ℕ) (arg : JsString) : Script Unit := do
  let passed ← passArgument R arg
  storeField R field ptr passed

end

/-! ### The page -/

/-- An object of the page: its `__wbg_ptr`, what was last put in it, and whether the page can still reach it. -/
structure Wrapper where
  ptr : ℕ
  texts : String × String
  referred : Bool

/-- The objects in the order they were made, and for each of them the pointer that the runtime is to free. -/
structure Page where
  world : World
  wrappers : ℕ → Option Wrapper
  registry : ℕ → Option ℕ
  created : ℕ

/-- The calls that make an object. -/
inductive Making (Rng : Type) where
  | newWallet (network : JsString) (draws : List (Except String (Bytes 32)))
  | newWalletMnemonic (network : JsString) (draw : Except String (Bytes 16))
  | sign (seedHex network message : JsString) (rng : Rng)

inductive Event (Rng : Type) where
  | make (making : Making Rng)
  | get (i : ℕ) (field : Field)
  | set (i : ℕ) (field : Field) (arg : JsString)
  | free (i : ℕ)
  | drop (i : ℕ)
  | collect (i : ℕ)
  | finalize (i : ℕ)

namespace Page

def initial (externrefs objects : ℕ → ℕ) : Page where
  world := .initial externrefs objects
  wrappers := fun _ => none
  registry := fun _ => none
  created := 0

/-- A piece of the glue runs. What it throws is the page's to handle. -/
def perform {α : Type} (page : Page) (x : Script α) (after : α → Page → Page) : Page :=
  match x.run page.world with
  | .ok a w => after a { page with world := w }
  | .error _ w => { page with world := w }

def setWrapper (page : Page) (i : ℕ) (wrapper : Option Wrapper) : Page :=
  { page with wrappers := Function.update page.wrappers i wrapper }

def unregister (page : Page) (i : ℕ) : Page := { page with registry := Function.update page.registry i none }

/-- `__wrap`. Without a `FinalizationRegistry` nothing is registered. -/
def wrap (page : Page) (R : Runtime) (ptr : ℕ) (texts : Option (String × String)) : Page where
  world := page.world
  wrappers := Function.update page.wrappers page.created (texts.map fun texts => ⟨ptr,texts,true⟩)
  registry := Function.update page.registry page.created (if R.finalizes then some ptr else none)
  created := page.created+1

/-- `__destroy_into_raw`. -/
def destroyIntoRaw (page : Page) (i : ℕ) (wrapper : Wrapper) : Page :=
  (page.setWrapper i (some { wrapper with ptr := 0 })).unregister i

/-- What the page does with an object that it can reach. -/
def reached (page : Page) (i : ℕ) (next : ℕ → String × String → Page) : Option Page :=
  match page.wrappers i with
  | some ⟨ptr,texts,true⟩ => some (next ptr texts)
  | _ => none

end Page

section
variable (C : GlueCrates) (R : Runtime) (X : Exports C.Rng)

def Making.call : Making C.Rng → Script ℕ
  | .newWallet network draws => Js.newWallet R X network draws
  | .newWalletMnemonic network draw => Js.newWalletMnemonic R X network draw
  | .sign seedHex network message rng => Js.sign R X seedHex network message rng

/-- The two texts of what is made. -/
def Making.made : Making C.Rng → Outcome (String × String)
  | .newWallet network draws =>
    (NewWallet.newWallet C.toMintCrates (wellFormed network) draws).map fun w => (w.seedHex,w.address)
  | .newWalletMnemonic network draw =>
    (NewWallet.newWalletMnemonic C.toMintCrates (wellFormed network) draw).map fun w => (w.mnemonic,w.address)
  | .sign seedHex network message rng =>
    (Money.sign C.toWalletCrates (wellFormed seedHex) (wellFormed network) (wellFormed message) rng).map
      fun s => (s.address,s.signatureHex)

/-- The next step of the page or of its runtime. An object that the page has lost is collected some time, and what
it has registered is freed some time after that. -/
def step (page : Page) : Event C.Rng → Option Page
  | .make making =>
    match making.made C with
    | .error .unfinished => none
    | made => some (page.perform (making.call C R X) fun ptr page => page.wrap R ptr made.toOption)
  | .get i field => page.reached i fun ptr _ => page.perform (getter R field.read ptr) fun _ page => page
  | .set i field arg => page.reached i fun ptr texts => page.perform (setter R field ptr arg) fun _ page =>
      page.setWrapper i (some ⟨ptr,field.write (wellFormed arg) texts,true⟩)
  | .free i => page.reached i fun ptr texts =>
      (page.destroyIntoRaw i ⟨ptr,texts,true⟩).perform (freeObject ptr) fun _ page => page
  | .drop i => page.reached i fun ptr texts => page.setWrapper i (some ⟨ptr,texts,false⟩)
  | .collect i =>
    match page.wrappers i with
    | some ⟨_,_,false⟩ => some (page.setWrapper i none)
    | _ => none
  | .finalize i =>
    match page.wrappers i,page.registry i with
    | none,some ptr => some ((page.unregister i).perform (freeObject ptr) fun _ page => page)
    | _,_ => none

end

/-! ### Setters and freed objects -/

section
variable {R : Runtime} (hA : R.allocator.Documented) {w : World}

/-- The texts of an object are replaced by these, and nobody borrows it. -/
structure Stored (w : World) (ptr : ℕ) (texts : String × String) (w' : World) : Prop where
  sound : w'.memory.Sound
  contents : w'.memory.content = w.memory.content
  externrefs : w'.handles.externrefs = w.handles.externrefs
  objects : w'.handles.objects.cells = Function.update w.handles.objects.cells ptr (some ⟨0,texts⟩)

include hA

theorem passArgument_ends (h : w.memory.Sound) (arg : JsString) : Ends (passArgument R arg) w
    (fun passed w' => passed.2 = (Utf16.encode arg).length ∧
      ∃ c, Placed w.memory.content passed.1 (Utf16.encode arg) c ∧ w.Into c w') (Trapped w) := by
  refine (passStringToWasm0_ends hA h arg).bind fun ptr w₁ hpassed => ?_
  obtain ⟨hlength,c,hplaced,hinto⟩ := hpassed
  exact .of_ok (a := (ptr,w₁.WASM_VECTOR_LEN)) rfl ⟨hlength,c,hplaced,hinto⟩

/-- A setter puts a text in its object, and leaves none of it behind. What is borrowed it does not touch. -/
theorem setter_ends (h : w.memory.Sound) {ptr : ℕ} {object : Object}
    (hobject : w.handles.objects.cells ptr = some object) (field : Field) (arg : JsString) :
    Ends (setter R field ptr arg) w (fun _ => Stored w ptr (field.write (wellFormed arg) object.texts))
      fun e w' => Trapped w e w' ∨ object.borrow ≠ 0 ∧ Refused w borrowFail e w' := by
  refine ((passArgument_ends hA h arg).mono (fun _ _ hpassed => hpassed) fun _ _ => .inl).bind fun passed w₁ hpassed => ?_
  obtain ⟨start,length⟩ := passed
  obtain ⟨hlength,c,hplaced,hinto⟩ := hpassed
  obtain rfl : length = (Utf16.encode arg).length := hlength
  have hobject₁ : w₁.handles.objects.cells ptr = some object := by
    rw [hinto.handles]
    exact hobject
  rw [storeField]
  refine .after (run_loadObject hobject₁) ?_
  split_ifs with hborrowed
  · exact .of_error rfl (.inr ⟨hborrowed,rfl,hinto.sound,hinto.handles⟩)
  · have hplaced₁ : Placed w.memory.content start (Utf16.encode arg) w₁.memory.content := by
      rw [hinto.contents]
      exact hplaced
    obtain ⟨w₂,htaken,hback⟩ := run_takeOver hA hinto.sound hplaced₁
    have hdecode : decodeUtf8 (Utf16.encode arg) = some (wellFormed arg) :=
      decodeUtf8_eq_some.mpr (encode_wellFormed arg)
    have hhandles : w₂.handles = w.handles := hback.handles.trans hinto.handles
    have hobject₂ : w₂.handles.objects.cells ptr = some object := by
      rw [hhandles]
      exact hobject
    obtain ⟨w₃,hstored,hmemory₃,hexternrefs₃,hobjects₃⟩ :=
      run_storeObject hobject₂ { object with texts := field.write (wellFormed arg) object.texts }
    have hborrow : object.borrow = 0 := not_not.mp hborrowed
    refine .after htaken ?_
    simp only [hdecode]
    refine .of_ok hstored ⟨?_,?_,?_,?_⟩
    · rw [hmemory₃]
      exact hback.sound
    · rw [hmemory₃,hback.contents]
    · rw [hexternrefs₃,hhandles]
    · rw [hobjects₃,hhandles,hborrow]

/-- The null pointer of a freed object is refused with what came for it left in memory. -/
theorem setter_null (h : w.memory.Sound) (field : Field) (arg : JsString) :
    Ends (setter R field 0 arg) w (fun _ _ => False) fun e w' => Trapped w e w' ∨ Refused w nullPointer e w' := by
  refine ((passArgument_ends hA h arg).mono (fun _ _ hpassed => hpassed) fun _ _ => .inl).bind fun passed w₁ hpassed => ?_
  obtain ⟨_,c,_,hinto⟩ := hpassed
  exact .of_error (e := nullPointer) (t := w₁) rfl (.inr ⟨rfl,hinto.sound,hinto.handles⟩)

theorem run_getter_null (field : String × String → String) : (getter R field 0).run w = .error nullPointer w := by
  have hfree : (free R 0 0).run w = .ok () w := by
    change EStateM.Result.ok () _ = _
    rw [hA.free_zero]
  have hread : (readField R field 0).run w = .error nullPointer w := rfl
  rw [getter,deferring]
  refine run_bind_error ?_
  rw [run_tryCatch,hread]
  exact run_bind_ok hfree

end

theorem Answers.map {α β : Type} {lower : α → β} {outcome : Outcome α} {reply : Reply β} (h : Answers lower outcome reply) :
    Answers id (outcome.map lower) reply := by
  cases outcome with
  | ok a =>
    constructor <;> intro _ heq <;> cases heq
    exact h.ok rfl
  | error stop =>
    constructor <;> intro _ heq <;> cases heq
    · exact h.err rfl
    · exact h.panic rfl

theorem Making.call_delivers {C : GlueCrates} {J : Money.PaymentJson} {R : Runtime} {X : Exports C.Rng}
    (hA : R.allocator.Documented) (h : X.Documented C J) {w : World} (hsound : w.memory.Sound) (making : Making C.Rng) :
    Delivers w (making.call C R X) (making.made C) (Made w) := by
  cases making with
  | newWallet network draws => exact objectCall_delivers hA (X.newWallet · draws) [network] hsound (h.newWallet _ draws).map
  | newWalletMnemonic network draw =>
    exact objectCall_delivers hA (X.newWalletMnemonic · draw) [network] hsound (h.newWalletMnemonic _ draw).map
  | sign seedHex network message rng =>
    exact objectCall_delivers hA (X.sign · rng) [seedHex,network,message] hsound (h.sign _ _ _ rng).map

namespace Page
variable {page page' : Page}

theorem reached_eq_some {i : ℕ} {next : ℕ → String × String → Page} : page.reached i next = some page' ↔
    ∃ ptr texts, page.wrappers i = some ⟨ptr,texts,true⟩ ∧ next ptr texts = page' := by
  constructor
  · intro h
    rw [reached] at h
    split at h
    · rename_i ptr texts hwrapper
      exact ⟨ptr,texts,hwrapper,Option.some.inj h⟩
    · cases h
  · rintro ⟨ptr,texts,hwrapper,rfl⟩
    rw [reached,hwrapper]

theorem perform_ok (page : Page) {α : Type} {x : Script α} {a : α} {w : World} (h : x.run page.world = .ok a w)
    (after : α → Page → Page) : page.perform x after = after a { page with world := w } := by
  rw [perform,h]

theorem perform_error (page : Page) {α : Type} {x : Script α} {e : Thrown} {w : World} (h : x.run page.world = .error e w)
    (after : α → Page → Page) : page.perform x after = { page with world := w } := by
  rw [perform,h]

theorem perform_cases {α : Type} {x : Script α} {Q : α → World → Prop} {E : Thrown → World → Prop}
    (h : Ends x page.world Q E) (after : α → Page → Page) :
    (∃ a w, Q a w ∧ page.perform x after = after a { page with world := w }) ∨
    ∃ e w, E e w ∧ page.perform x after = { page with world := w } := by
  cases hrun : x.run page.world with
  | ok a w => exact .inl ⟨a,w,h.ok hrun,perform_ok page hrun after⟩
  | error e w => exact .inr ⟨e,w,h.error hrun,perform_error page hrun after⟩

end Page
end ZkasSigner.Js
