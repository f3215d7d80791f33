import ZkasSigner.NewWallet
import ZkasSigner.Js.Strings

/-! The calls of the JavaScript glue. The arguments of a call are the library's once it runs; its result
stands in the library's memory until the glue has read it, and what it throws stands in a table. -/
namespace ZkasSigner.Js
open Foundation Foundation.Text Foundation.Script

/-! ### The library's side -/

/-- What an exported function comes to. -/
inductive Reply (β : Type) where
  | value (b : β)
  | thrown (reason : JsString)
  | trap

/-- The exported functions, on the bytes of their text arguments. -/
structure Exports (Rng : Type) where
  fvkHex : List (List UInt8) → Reply String
  newWalletMnemonic : List (List UInt8) → Except String (Bytes 16) → Reply (String × String)
  accountSeedHex : List (List UInt8) → UInt32 → Reply String
  addressFromSeed : List (List UInt8) → Reply String
  accountAddress : List (List UInt8) → UInt32 → Reply String
  sign : List (List UInt8) → Rng → Reply (String × String)
  verify : List (List UInt8) → Reply Bool
  newWallet : List (List UInt8) → List (Except String (Bytes 32)) → Reply (String × String)
  signSpendAuth : List (List UInt8) → Rng → Reply String
  isValidMnemonic : List (List UInt8) → Reply Bool
  verifyAndSignPayment : List (List UInt8) → UInt64 → UInt64 → Reply String

section
variable (R : Runtime)

/-- A function takes over the block of an argument. -/
def takeOver (arg : ℕ × ℕ) : Script (List UInt8) := do
  let w ← get
  let bytes := w.memory.slice arg.1 arg.2
  free R arg.1 arg.2
  return bytes

/-- A text that is returned, as its address and its length. -/
def placeText (text : String) : Script (ℕ × ℕ) := do
  let bytes := asBytes text
  let ptr ← malloc R bytes.length
  writeTo ⟨0,ptr,bytes.length⟩ bytes
  return (ptr,bytes.length)

def placeBool (b : Bool) : Script ℕ := pure (if b then 1 else 0)

def placeObject (texts : String × String) : Script ℕ := fun w =>
  .ok w.handles.objects.next { w with handles.objects := w.handles.objects.alloc ⟨0,texts⟩ }

/-- What `throw_null` and `borrow_fail` throw. -/
def nullPointer : Thrown := .error "null pointer passed to rust"

def borrowFail : Thrown := .error "recursive use of an object detected which would lead to unsafe aliasing in rust"

def loadObject (ptr : ℕ) : Script Object := fun w =>
  if ptr = 0 then .error nullPointer w
  else
    match w.handles.objects.cells ptr with
    | some object => .ok object w
    | none => .error .undefined w

def storeObject (ptr : ℕ) (object : Object) : Script Unit := fun w =>
  if h : (w.handles.objects.cells ptr).isSome = true then
    .ok () { w with handles.objects := w.handles.objects.put ptr (some object) h }
  else .error .undefined w

/-- `__wbg_…_free`. -/
def freeObject (ptr : ℕ) : Script Unit := fun w =>
  if ptr = 0 then .error nullPointer w
  else if h : (w.handles.objects.cells ptr).isSome = true then
    .ok () { w with handles.objects := w.handles.objects.put ptr none h }
  else .error .undefined w

def addToExternrefTable0 (value : JsString) : Script ℕ := fun w =>
  .ok w.handles.externrefs.next { w with handles.externrefs := w.handles.externrefs.alloc value }

def replied {β γ : Type} (place : β → Script γ) : Reply β → Script (Except ℕ γ)
  | .value b => do
    let value ← place b
    return .ok value
  | .thrown reason => do
    let idx ← addToExternrefTable0 reason
    return .error idx
  | .trap => throw .trap

/-- An exported function on its arguments. It returns a value, or the number of what it throws. -/
def exported {β γ : Type} (fn : List (List UInt8) → Reply β) (place : β → Script γ) (args : List (ℕ × ℕ)) :
    Script (Except ℕ γ) := do
  let texts ← args.mapM (takeOver R)
  replied place (fn texts)

/-! ### The glue's side -/

def takeFromExternrefTable0 (idx : ℕ) : Script JsString := fun w =>
  if h : (w.handles.externrefs.cells idx).isSome = true then
    .ok ((w.handles.externrefs.cells idx).get h) { w with handles.externrefs := w.handles.externrefs.put idx none h }
  else .error .typeError w

def passArgument (arg : JsString) : Script (ℕ × ℕ) := do
  let ptr ← passStringToWasm0 R arg
  let w ← get
  return (ptr,w.WASM_VECTOR_LEN)

def returned {γ : Type} : Except ℕ γ → Script γ
  | .ok value => pure value
  | .error idx => do
    let reason ← takeFromExternrefTable0 idx
    throw (.value reason)

def callExport {β γ : Type} (fn : List (List UInt8) → Reply β) (place : β → Script γ) (args : List JsString) :
    Script γ := do
  let passed ← args.mapM (passArgument R)
  let ret ← exported R fn place passed
  returned ret

/-- `try { … } finally { … }` -/
def tryFinally {γ : Type} (x : Script γ) (cleanup : Script Unit) : Script γ := do
  let value ← tryCatch x fun e => do
    cleanup
    throw e
  cleanup
  return value

/-- A text is read and given back. Where there is none yet, nothing is what is given back. -/
def deferring (front : Script (ℕ × ℕ)) : Script JsString := do
  let deferred ← tryCatch front fun e => do
    free R 0 0
    throw e
  tryFinally (getStringFromWasm0 deferred.1 deferred.2) (free R deferred.1 deferred.2)

def textCall (fn : List (List UInt8) → Reply String) (args : List JsString) : Script JsString :=
  deferring R (callExport R fn (placeText R) args)

def boolCall (fn : List (List UInt8) → Reply Bool) (args : List JsString) : Script Bool := do
  let ret ← callExport R fn placeBool args
  return ret ≠ 0

/-- `__wrap`: an object of the glue is its pointer. -/
def objectCall (fn : List (List UInt8) → Reply (String × String)) (args : List JsString) : Script ℕ :=
  callExport R fn placeObject args

/-- A text of an object is cloned for the caller, who borrows the object for that. Where the library stops
in between, it stays borrowed. -/
def readField (field : String × String → String) (ptr : ℕ) : Script (ℕ × ℕ) := do
  let object ← loadObject ptr
  if object.borrow = 0xFFFFFFFF then throw borrowFail
  else do
    storeObject ptr { object with borrow := object.borrow+1 }
    let result ← placeText R (field object.texts)
    storeObject ptr object
    return result

def getter (field : String × String → String) (ptr : ℕ) : Script JsString := deferring R (readField R field ptr)

section
variable {Rng : Type} (X : Exports Rng)

def fvkHex (seedHex : JsString) : Script JsString := textCall R X.fvkHex [seedHex]

def newWalletMnemonic (network : JsString) (draw : Except String (Bytes 16)) : Script ℕ :=
  objectCall R (X.newWalletMnemonic · draw) [network]

def accountSeedHex (mnemonic : JsString) (account : UInt32) : Script JsString :=
  textCall R (X.accountSeedHex · account) [mnemonic]

def addressFromSeed (seedHex network : JsString) : Script JsString := textCall R X.addressFromSeed [seedHex,network]

def accountAddress (mnemonic network : JsString) (account : UInt32) : Script JsString :=
  textCall R (X.accountAddress · account) [mnemonic,network]

def sign (seedHex network message : JsString) (rng : Rng) : Script ℕ :=
  objectCall R (X.sign · rng) [seedHex,network,message]

def verify (address message signatureHex : JsString) : Script Bool :=
  boolCall R X.verify [address,message,signatureHex]

def newWallet (network : JsString) (draws : List (Except String (Bytes 32))) : Script ℕ :=
  objectCall R (X.newWallet · draws) [network]

def signSpendAuth (seedHex alphaHex sighashHex : JsString) (rng : Rng) : Script JsString :=
  textCall R (X.signSpendAuth · rng) [seedHex,alphaHex,sighashHex]

def isValidMnemonic (secret : JsString) : Script Bool := boolCall R X.isValidMnemonic [secret]

def verifyAndSignPayment (seedHex network toAddress : JsString) (amountSompi maxFeeSompi : UInt64)
    (bundleHex disclosureJson alphasJson : JsString) : Script JsString :=
  textCall R (X.verifyAndSignPayment · amountSompi maxFeeSompi)
    [seedHex,network,toAddress,bundleHex,disclosureJson,alphasJson]

end
end

/-! ### Arguments -/

/-- The arguments of a call stand in memory, the first one on top. -/
inductive Arguments (base : Contents) : List (ℕ × ℕ) → List (List UInt8) → Contents → Prop
  | nil : Arguments base [] [] base
  | cons {ptr : ℕ} {bytes : List UInt8} {args : List (ℕ × ℕ)} {texts : List (List UInt8)} {c c' : Contents}
      (rest : Arguments base args texts c) (placed : Placed c ptr bytes c') :
      Arguments base ((ptr,bytes.length)::args) (bytes::texts) c'

/-- Two blocks can be placed in either order. -/
theorem Placed.swap {c₀ c₁ c₂ : Contents} {p q : ℕ} {bytes bytes' : List UInt8} (h : Placed c₀ p bytes c₁)
    (h' : Placed c₁ q bytes' c₂) : ∃ c, Placed c₀ q bytes' c ∧ Placed c p bytes c₂ := by
  by_cases hbytes : bytes = []
  · rw [Placed,if_pos hbytes] at h
    rw [h] at h'
    exact ⟨c₂,h',by rw [Placed,if_pos hbytes]⟩
  by_cases hbytes' : bytes' = []
  · rw [Placed,if_pos hbytes'] at h'
    rw [← h'] at h
    exact ⟨c₀,by rw [Placed,if_pos hbytes'],h⟩
  obtain ⟨hp,rfl⟩ := h.cell hbytes
  obtain ⟨hq,rfl⟩ := h'.cell hbytes'
  have hne : q ≠ p := by
    rintro rfl
    rw [Function.update_self] at hq
    cases hq
  rw [Function.update_of_ne hne] at hq
  refine ⟨Function.update c₀ q (some bytes'),?_,?_⟩
  · rw [Placed,if_neg hbytes']
    exact ⟨hq,rfl⟩
  · rw [Placed,if_neg hbytes,Function.update_of_ne hne.symm]
    exact ⟨hp,Function.update_comm hne.symm ..⟩

theorem Arguments.concat {base c c' : Contents} {args : List (ℕ × ℕ)} {texts : List (List UInt8)} {ptr : ℕ}
    {bytes : List UInt8} (h : Arguments base args texts c) (hplaced : Placed c ptr bytes c') :
    Arguments base (args ++ [(ptr,bytes.length)]) (texts ++ [bytes]) c' := by
  induction h generalizing c' with
  | nil => exact .cons .nil hplaced
  | cons _ placed ih =>
    obtain ⟨c₁,hinner,houter⟩ := placed.swap hplaced
    exact .cons (ih hinner) houter

section
variable {R : Runtime} (hA : R.allocator.Documented) {w : World}
include hA

theorem passArguments_ends (h : w.memory.Sound) {base : Contents} {passed : List (ℕ × ℕ)} {texts : List (List UInt8)}
    (hpassed : Arguments base passed texts w.memory.content) (args : List JsString) :
    Ends (args.mapM (passArgument R)) w (fun new w' => w'.memory.Sound ∧ w'.handles = w.handles ∧
      Arguments base (passed ++ new) (texts ++ args.map Utf16.encode) w'.memory.content) (Trapped w) := by
  induction args generalizing w passed texts with
  | nil => exact .of_ok rfl ⟨h,rfl,by simpa using hpassed⟩
  | cons arg args ih =>
    rw [List.mapM_cons]
    have hfirst : Ends (passArgument R arg) w (fun placed w' => w'.memory.Sound ∧ w'.handles = w.handles ∧
        Arguments base (passed ++ [placed]) (texts ++ [Utf16.encode arg]) w'.memory.content) (Trapped w) := by
      refine (passStringToWasm0_ends hA h arg).bind fun ptr w₁ hptr => ?_
      obtain ⟨hlen,c,hplaced,hinto⟩ := hptr
      refine .of_ok (a := (ptr,w₁.WASM_VECTOR_LEN)) rfl ⟨hinto.sound,hinto.handles,?_⟩
      rw [hlen,hinto.contents]
      exact hpassed.concat hplaced
    refine hfirst.bind fun placed w₁ hplaced => ?_
    obtain ⟨hsound,hhandles,hpassed₁⟩ := hplaced
    have hrest := ih hsound hpassed₁
    rw [trapped_congr hhandles] at hrest
    refine hrest.bind fun new w₂ hnew => ?_
    obtain ⟨hsound₂,hhandles₂,hpassed₂⟩ := hnew
    refine .of_ok (a := placed::new) rfl ⟨hsound₂,hhandles₂.trans hhandles,?_⟩
    simpa using hpassed₂

theorem run_free (h : w.memory.Sound) {c : Contents} {ptr : ℕ} {bytes : List UInt8}
    (hplaced : Placed c ptr bytes w.memory.content) : ∃ w', (free R ptr bytes.length).run w = .ok () w' ∧
      w.Into c w' := by
  refine ⟨_,rfl,?_⟩
  by_cases hbytes : bytes = []
  · rw [Placed,if_pos hbytes] at hplaced
    rw [hbytes,List.length_nil,hA.free_zero,← hplaced]
    exact .refl h
  · obtain ⟨hsound,hcontent⟩ := hA.free h (hplaced.content hbytes)
    obtain ⟨hfresh,hc⟩ := hplaced.cell hbytes
    refine ⟨hsound,?_,rfl⟩
    rw [hcontent,hc,Function.update_idem]
    exact Function.update_eq_self_iff.mpr hfresh.symm

theorem run_takeOver (h : w.memory.Sound) {c : Contents} {ptr : ℕ} {bytes : List UInt8}
    (hplaced : Placed c ptr bytes w.memory.content) : ∃ w', (takeOver R (ptr,bytes.length)).run w = .ok bytes w' ∧
      w.Into c w' := by
  obtain ⟨w',hfree,hinto⟩ := run_free hA h hplaced
  have hslice : w.memory.slice ptr bytes.length = bytes := by
    by_cases hbytes : bytes = []
    · rw [hbytes]
      rfl
    · exact (Linear.content_eq_some.mp (hplaced.content hbytes)).2
  refine ⟨w',?_,hinto⟩
  have hget : (get : Script World).run w = .ok w w := rfl
  rw [takeOver,run_bind_ok hget,run_bind_ok hfree,hslice]
  rfl

theorem run_takeArguments {base c : Contents} {args : List (ℕ × ℕ)} {texts : List (List UInt8)}
    (hargs : Arguments base args texts c) (h : w.memory.Sound) (hc : w.memory.content = c) : ∃ w',
      (args.mapM (takeOver R)).run w = .ok texts w' ∧ w.Into base w' := by
  induction hargs generalizing w with
  | nil => exact ⟨w,rfl,h,hc,rfl⟩
  | cons rest placed ih =>
    rw [← hc] at placed
    obtain ⟨w₁,hfirst,hinto⟩ := run_takeOver hA h placed
    obtain ⟨w₂,hrest,hinto₂⟩ := ih hinto.sound hinto.contents
    refine ⟨w₂,?_,hinto.trans hinto₂⟩
    rw [List.mapM_cons,run_bind_ok hfirst,run_bind_ok hrest]
    rfl

/-! ### Results -/

end

/-- Nothing is left behind in memory or in the tables. -/
structure World.Same (w w' : World) : Prop where
  sound : w'.memory.Sound
  contents : w'.memory.content = w.memory.content
  externrefs : w'.handles.externrefs.cells = w.handles.externrefs.cells
  objects : w'.handles.objects.cells = w.handles.objects.cells

theorem World.Into.same {w w' : World} (h : w.Into w.memory.content w') : w.Same w' :=
  ⟨h.sound,h.contents,by rw [h.handles],by rw [h.handles]⟩

/-- What an exported function leaves, as the glue hands it on. -/
def Returns {β γ : Type} (w : World) (x : Script γ) (place : β → Script γ) : Reply β → Prop
  | .value b => ∀ {Q}, (∀ w', w.Into w.memory.content w' → Ends (place b) w' Q (Trapped w)) → Ends x w Q (Trapped w)
  | .thrown reason => Ends x w (fun _ _ => False) fun e w' => Trapped w e w' ∨ e = .value reason ∧ w.Same w'
  | .trap => Ends x w (fun _ _ => False) (Trapped w)

/-- What is thrown leaves the table again. -/
theorem run_thrown {β γ : Type} (place : β → Script γ) (w : World) (reason : JsString) : ∃ w',
    (replied place (.thrown reason) >>= returned).run w = .error (.value reason) w' ∧ w'.memory = w.memory ∧
      w'.handles.externrefs.cells = w.handles.externrefs.cells ∧ w'.handles.objects = w.handles.objects := by
  have hcell : (w.handles.externrefs.alloc reason).cells w.handles.externrefs.next = some reason :=
    Function.update_self ..
  have hsome : ((w.handles.externrefs.alloc reason).cells w.handles.externrefs.next).isSome = true := by
    rw [hcell]
    rfl
  have hadd : (addToExternrefTable0 reason).run w = .ok w.handles.externrefs.next
      { w with handles.externrefs := w.handles.externrefs.alloc reason } := rfl
  have htake : (takeFromExternrefTable0 w.handles.externrefs.next).run
      { w with handles.externrefs := w.handles.externrefs.alloc reason } = .ok reason
      { w with handles.externrefs := (w.handles.externrefs.alloc reason).put w.handles.externrefs.next none hsome } := by
    refine (dif_pos hsome).trans ?_
    simp only [hcell,Option.get_some]
  refine ⟨{ w with handles.externrefs := (w.handles.externrefs.alloc reason).put w.handles.externrefs.next none hsome },
    ?_,rfl,?_,rfl⟩
  · rw [replied,bind_assoc,run_bind_ok hadd,pure_bind,returned,run_bind_ok htake]
    rfl
  · change Function.update (Function.update w.handles.externrefs.cells w.handles.externrefs.next (some reason))
      w.handles.externrefs.next none = _
    rw [Function.update_idem,Function.update_eq_self_iff]
    exact w.handles.externrefs.next_unused.symm

section
variable {R : Runtime} (hA : R.allocator.Documented) {w : World}
include hA

theorem callExport_returns {β γ : Type} (h : w.memory.Sound) (fn : List (List UInt8) → Reply β) (place : β → Script γ)
    (args : List JsString) : Returns w (callExport R fn place args) place (fn (args.map Utf16.encode)) := by
  -- up to the reply every call goes the same way
  have hcalled : ∀ {Q E}, (∀ w', w.Into w.memory.content w' →
      Ends (replied place (fn (args.map Utf16.encode)) >>= returned) w' Q E) → (∀ e w', Trapped w e w' → E e w') →
      Ends (callExport R fn place args) w Q E := by
    intro Q E hreplied htrap
    rw [callExport]
    refine ((passArguments_ends hA h .nil args).mono (fun _ _ hq => hq) htrap).bind fun passed w₁ hpassed => ?_
    obtain ⟨hsound,hhandles,hpassed⟩ := hpassed
    obtain ⟨w₂,htaken,hinto⟩ := run_takeArguments hA hpassed hsound rfl
    rw [exported,bind_assoc]
    exact .after htaken (hreplied w₂ ⟨hinto.sound,hinto.contents,hinto.handles.trans hhandles⟩)
  cases hreply : fn (args.map Utf16.encode) with
  | value b =>
    intro Q hplace
    rw [hreply] at hcalled
    refine hcalled (fun w' hinto => ?_) fun _ _ htrap => htrap
    rw [replied,bind_assoc]
    refine (hplace w' hinto).bind fun value w₁ hvalue => ?_
    exact .of_ok rfl hvalue
  | thrown reason =>
    rw [hreply] at hcalled
    refine hcalled (fun w' hinto => ?_) fun _ _ htrap => .inl htrap
    obtain ⟨w₁,hrun,hmemory,hexternrefs,hobjects⟩ := run_thrown place w' reason
    refine .of_error hrun (.inr ⟨rfl,?_,?_,?_,?_⟩)
    · rw [hmemory]
      exact hinto.sound
    · rw [hmemory,hinto.contents]
    · rw [hexternrefs,hinto.handles]
    · rw [hobjects,hinto.handles]
  | trap =>
    rw [hreply] at hcalled
    exact hcalled (fun w' hinto => .of_error rfl ⟨rfl,hinto.sound,hinto.handles⟩) fun _ _ htrap => htrap

/-- A text of the library's stands in memory for the glue to read. -/
structure Loaded (w : World) (text : String) (result : ℕ × ℕ) (w' : World) : Prop where
  length : result.2 = (asBytes text).length
  placed : Placed w.memory.content result.1 (asBytes text) w'.memory.content
  sound : w'.memory.Sound
  externrefs : w'.handles.externrefs.cells = w.handles.externrefs.cells
  objects : w'.handles.objects.cells = w.handles.objects.cells

theorem placeText_ends (h : w.memory.Sound) (text : String) : Ends (placeText R text) w (Loaded w text) (Trapped w) := by
  rw [placeText]
  refine (malloc_ends hA h (asBytes text).length).bind fun ptr w₁ hptr => ?_
  obtain ⟨l,c,hlength,hplaced,hinto⟩ := hptr
  by_cases htext : asBytes text = []
  · rw [htext,List.length_nil] at hlength
    rw [List.eq_nil_of_length_eq_zero hlength] at hplaced
    rw [htext]
    refine .of_ok (a := (ptr,0)) (t := w₁) rfl ⟨?_,?_,hinto.sound,by rw [hinto.handles],by rw [hinto.handles]⟩
    · rw [htext]
      rfl
    · rw [htext,hinto.contents]
      exact hplaced
  · have hne : l ≠ [] := by
      rw [← List.length_pos_iff,hlength]
      exact List.length_pos_iff.mpr htext
    have hcell : w₁.memory.content ptr = some ([] ++ (l ++ [])) := by
      rw [hinto.contents,List.append_nil]
      exact hplaced.content hne
    obtain ⟨w₂,hwritten,hinto₂⟩ := run_writeTo hinto.sound 0 (asBytes text).length hlength hcell
    refine .after hwritten (.of_ok rfl ⟨rfl,?_,hinto₂.sound,?_,?_⟩)
    · rw [hinto₂.contents,hinto.contents,List.append_nil]
      exact hplaced.set hne htext
    · rw [hinto₂.handles,hinto.handles]
    · rw [hinto₂.handles,hinto.handles]

/-- Until there is a result, nothing is given back. -/
theorem front_ends {front : Script (ℕ × ℕ)} {Q : ℕ × ℕ → World → Prop} {E : Thrown → World → Prop} (h : Ends front w Q E) :
    Ends (tryCatch front fun e => do free R 0 0; throw e) w Q E := by
  refine h.tryCatch fun e w₁ hE => ?_
  have hfree : (free R 0 0).run w₁ = .ok () w₁ := by
    change EStateM.Result.ok () _ = _
    rw [hA.free_zero]
  exact .after hfree (.of_error rfl hE)

/-- What is deferred is given back once it is read. -/
theorem deferring_ends {front : Script (ℕ × ℕ)} {text : String} {E : Thrown → World → Prop}
    (h : Ends front w (Loaded w text) E) :
    Ends (deferring R front) w (fun s w' => s = Utf16.ofString text ∧ w.Same w') E := by
  rw [deferring]
  refine (front_ends hA h).bind fun deferred w₁ hloaded => ?_
  obtain ⟨w₂,hread,hmemory,hhandles⟩ := run_getStringFromWasm0 hloaded.sound hloaded.placed rfl
  have hplaced : Placed w.memory.content deferred.1 (asBytes text) w₂.memory.content := by
    rw [hmemory]
    exact hloaded.placed
  have hsound : w₂.memory.Sound := by
    rw [hmemory]
    exact hloaded.sound
  obtain ⟨w₃,hfree,hinto⟩ := run_free hA hsound hplaced
  rw [← hloaded.length] at hread hfree
  have htry : (tryCatch (getStringFromWasm0 deferred.1 deferred.2) fun e => do
      free R deferred.1 deferred.2
      throw e).run w₁ = .ok (Utf16.ofString text) w₂ := by
    rw [run_tryCatch,hread]
  rw [tryFinally]
  refine .after htry (.after hfree (.of_ok rfl ⟨rfl,hinto.sound,hinto.contents,?_,?_⟩))
  · rw [hinto.handles,hhandles,hloaded.externrefs]
  · rw [hinto.handles,hhandles,hloaded.objects]

end

/-! ### Delivery -/

/-- What the function behind an export came to, as the export hands it over. -/
structure Answers {α β : Type} (lower : α → β) (outcome : Outcome α) (reply : Reply β) : Prop where
  ok : ∀ {a}, outcome = .ok a → reply = .value (lower a)
  err : ∀ {reason}, outcome = .error (.err reason) → reply = .thrown (Utf16.ofString reason)
  panic : ∀ {message}, outcome = .error (.panic message) → reply = .trap

/-- What the caller of the glue gets, unless memory runs out. -/
structure Delivers {α γ : Type} (w : World) (x : Script γ) (outcome : Outcome α) (after : α → γ → World → Prop) : Prop where
  ok : ∀ {a}, outcome = .ok a → Ends x w (after a) (Trapped w)
  err : ∀ {reason}, outcome = .error (.err reason) →
    Ends x w (fun _ _ => False) fun e w' => Trapped w e w' ∨ e = .value (Utf16.ofString reason) ∧ w.Same w'
  panic : ∀ {message}, outcome = .error (.panic message) → Ends x w (fun _ _ => False) (Trapped w)

/-- A text, and memory as it was. -/
def Text (w : World) (text : String) (got : JsString) (w' : World) : Prop := got = Utf16.ofString text ∧ w.Same w'

/-- A new object with its two texts, which nobody borrows yet. -/
structure Made (w : World) (texts : String × String) (ptr : ℕ) (w' : World) : Prop where
  notNull : ptr ≠ 0
  unused : w.handles.objects.cells ptr = none
  sound : w'.memory.Sound
  contents : w'.memory.content = w.memory.content
  externrefs : w'.handles.externrefs.cells = w.handles.externrefs.cells
  objects : w'.handles.objects.cells = Function.update w.handles.objects.cells ptr (some ⟨0,texts⟩)

theorem Made.cell {w w' : World} {texts : String × String} {ptr : ℕ} (h : Made w texts ptr w') :
    w'.handles.objects.cells ptr = some ⟨0,texts⟩ := by
  rw [h.objects,Function.update_self]

/-- The texts of the objects that are there. -/
def World.texts (w : World) : ℕ → Option (String × String) := Option.map Object.texts ∘ w.handles.objects.cells

theorem World.texts_update {w w' : World} {ptr : ℕ} {o : Option Object}
    (h : w'.handles.objects.cells = Function.update w.handles.objects.cells ptr o) :
    w'.texts = Function.update w.texts ptr (o.map Object.texts) := by
  rw [texts,h,Function.comp_update]
  rfl

theorem World.texts_isSome (w : World) (ptr : ℕ) : (w.texts ptr).isSome = (w.handles.objects.cells ptr).isSome :=
  Option.isSome_map

/-- What is thrown leaves memory sound and the tables as they were. -/
def Refused (w : World) (thrown e : Thrown) (w' : World) : Prop := e = thrown ∧ w'.memory.Sound ∧ w'.handles = w.handles

/-- Memory ran out while a text was cloned, and the object stays borrowed. -/
structure Interrupted (w : World) (ptr : ℕ) (object : Object) (e : Thrown) (w' : World) : Prop where
  trap : e = .trap
  sound : w'.memory.Sound
  externrefs : w'.handles.externrefs = w.handles.externrefs
  objects : w'.handles.objects.cells =
    Function.update w.handles.objects.cells ptr (some { object with borrow := object.borrow+1 })

/-- An object that is not read: memory ran out, or it is borrowed as often as can be counted. -/
def Unread (w : World) (ptr : ℕ) (object : Object) (e : Thrown) (w' : World) : Prop :=
  Interrupted w ptr object e w' ∨ object.borrow = 0xFFFFFFFF ∧ Refused w borrowFail e w'

section
variable {R : Runtime} (hA : R.allocator.Documented) {w : World}
include hA

/-- A call delivers, given how a value is handed on. -/
theorem callExport_delivers {α β γ : Type} {lower : α → β} {outcome : Outcome α} {fn : List (List UInt8) → Reply β}
    {place : β → Script γ} {args : List JsString} {after : α → γ → World → Prop} (h : w.memory.Sound)
    (hanswers : Answers lower outcome (fn (args.map fun arg => asBytes (wellFormed arg))))
    (hplace : ∀ a w', w.Into w.memory.content w' → Ends (place (lower a)) w' (after a) (Trapped w)) :
    Delivers w (callExport R fn place args) outcome after := by
  have hreturns := callExport_returns hA h fn place args
  rw [List.map_congr_left fun arg _ => encode_wellFormed arg] at hreturns
  refine ⟨fun {a} ha => ?_,fun {reason} hreason => ?_,fun {message} hmessage => ?_⟩
  · rw [hanswers.ok ha] at hreturns
    exact hreturns (hplace a)
  · rw [hanswers.err hreason] at hreturns
    exact hreturns
  · rw [hanswers.panic hmessage] at hreturns
    exact hreturns

theorem textCall_delivers {outcome : Outcome String} (fn : List (List UInt8) → Reply String) (args : List JsString)
    (h : w.memory.Sound) (hanswers : Answers id outcome (fn (args.map fun arg => asBytes (wellFormed arg)))) :
    Delivers w (textCall R fn args) outcome (Text w) := by
  have hcall : Delivers w (callExport R fn (placeText R) args) outcome (Loaded w) := by
    refine callExport_delivers hA h hanswers fun text w' hinto => ?_
    have hplace := placeText_ends hA hinto.sound text
    rw [trapped_congr hinto.handles] at hplace
    refine hplace.mono (fun result w'' hloaded => ?_) fun _ _ htrap => htrap
    refine ⟨hloaded.length,?_,hloaded.sound,?_,?_⟩
    · rw [← hinto.contents]
      exact hloaded.placed
    · rw [hloaded.externrefs,hinto.handles]
    · rw [hloaded.objects,hinto.handles]
  exact ⟨fun ha => deferring_ends hA (hcall.ok ha),fun hreason => (front_ends hA (hcall.err hreason)).bind nofun,
    fun hmessage => (front_ends hA (hcall.panic hmessage)).bind nofun⟩

theorem boolCall_delivers {outcome : Outcome Bool} (fn : List (List UInt8) → Reply Bool) (args : List JsString)
    (h : w.memory.Sound) (hanswers : Answers id outcome (fn (args.map fun arg => asBytes (wellFormed arg)))) :
    Delivers w (boolCall R fn args) outcome fun b got w' => got = b ∧ w.Same w' := by
  have hcall : Delivers w (callExport R fn placeBool args) outcome
      fun b ret w' => (decide (ret ≠ 0)) = b ∧ w.Same w' := by
    refine callExport_delivers hA h hanswers fun b w' hinto => ?_
    exact .of_ok rfl ⟨by cases b <;> rfl,hinto.same⟩
  exact ⟨fun ha => (hcall.ok ha).bind fun _ _ hret => .of_ok rfl hret,fun hreason => (hcall.err hreason).bind nofun,
    fun hmessage => (hcall.panic hmessage).bind nofun⟩

theorem objectCall_delivers {α : Type} {texts : α → String × String} {outcome : Outcome α}
    (fn : List (List UInt8) → Reply (String × String)) (args : List JsString) (h : w.memory.Sound)
    (hanswers : Answers texts outcome (fn (args.map fun arg => asBytes (wellFormed arg)))) :
    Delivers w (objectCall R fn args) outcome fun a => Made w (texts a) := by
  refine callExport_delivers hA h hanswers fun a w' hinto => ?_
  refine .of_ok rfl ⟨w'.handles.objects.next_ne_zero,?_,hinto.sound,hinto.contents,by rw [hinto.handles],?_⟩
  · rw [← hinto.handles]
    exact w'.handles.objects.next_unused
  · rw [← hinto.handles]
    rfl

section
omit hA
variable {ptr : ℕ} {object : Object} (hobject : w.handles.objects.cells ptr = some object)
include hobject

theorem run_loadObject : (loadObject ptr).run w = .ok object w := by
  change loadObject ptr w = _
  rw [loadObject,if_neg (Heap.ne_zero hobject)]
  simp only [hobject]

/-- The object in a cell is replaced, and nothing else. -/
theorem run_storeObject (new : Object) : ∃ w', (storeObject ptr new).run w = .ok () w' ∧ w'.memory = w.memory ∧
    w'.handles.externrefs = w.handles.externrefs ∧
    w'.handles.objects.cells = Function.update w.handles.objects.cells ptr (some new) := by
  have hsome : (w.handles.objects.cells ptr).isSome = true := by
    rw [hobject]
    rfl
  exact ⟨_,dif_pos hsome,rfl,rfl,rfl⟩

theorem run_freeObject : ∃ w', (freeObject ptr).run w = .ok () w' ∧ w'.memory = w.memory ∧
    w'.handles.externrefs = w.handles.externrefs ∧
    w'.handles.objects.cells = Function.update w.handles.objects.cells ptr none := by
  have hsome : (w.handles.objects.cells ptr).isSome = true := by
    rw [hobject]
    rfl
  exact ⟨_,(if_neg (Heap.ne_zero hobject)).trans (dif_pos hsome),rfl,rfl,rfl⟩

end

/-- The borrow for a clone is given back with the text. -/
theorem readField_ends (h : w.memory.Sound) {ptr : ℕ} {object : Object}
    (hobject : w.handles.objects.cells ptr = some object) (field : String × String → String) :
    Ends (readField R field ptr) w (Loaded w (field object.texts)) (Unread w ptr object) := by
  rw [readField]
  refine .after (run_loadObject hobject) ?_
  split_ifs with hfull
  · exact .of_error rfl (.inr ⟨hfull,rfl,h,rfl⟩)
  · obtain ⟨w₁,hborrow,hmemory₁,hexternrefs₁,hobjects₁⟩ :=
      run_storeObject hobject { object with borrow := object.borrow+1 }
    have hsound₁ : w₁.memory.Sound := by
      rw [hmemory₁]
      exact h
    have hplaced : Ends (placeText R (field object.texts)) w₁ (Loaded w₁ (field object.texts)) (Unread w ptr object) := by
      refine (placeText_ends hA hsound₁ (field object.texts)).mono (fun _ _ hloaded => hloaded) fun e w' htrap =>
        .inl ⟨htrap.1,htrap.2.1,?_,?_⟩
      · rw [htrap.2.2,hexternrefs₁]
      · rw [htrap.2.2,hobjects₁]
    refine .after hborrow (hplaced.bind fun result w₂ hloaded => ?_)
    have hcell : w₂.handles.objects.cells ptr = some { object with borrow := object.borrow+1 } := by
      rw [hloaded.objects,hobjects₁,Function.update_self]
    obtain ⟨w₃,hback,hmemory₃,hexternrefs₃,hobjects₃⟩ := run_storeObject hcell object
    refine .after hback (.of_ok rfl ⟨hloaded.length,?_,?_,?_,?_⟩)
    · rw [hmemory₃,← hmemory₁]
      exact hloaded.placed
    · rw [hmemory₃]
      exact hloaded.sound
    · rw [hexternrefs₃,hloaded.externrefs,hexternrefs₁]
    · rw [hobjects₃,hloaded.objects,hobjects₁,Function.update_idem,Function.update_eq_self_iff]
      exact hobject.symm

/-- A getter reads the text of its object. -/
theorem getter_ends (h : w.memory.Sound) {ptr : ℕ} {object : Object} (hobject : w.handles.objects.cells ptr = some object)
    (field : String × String → String) :
    Ends (getter R field ptr) w (Text w (field object.texts)) (Unread w ptr object) :=
  deferring_ends hA (readField_ends hA h hobject field)

end

end ZkasSigner.Js
