import ZkasSigner.Foundation.Heap
import ZkasSigner.Foundation.Script
import ZkasSigner.Mobile.Signer
import ZkasSigner.Swift.Converters

/-! The calls of the Swift binding. Arguments and results cross in buffers that one side makes and the
other gives back, and a signer is a pointer whose owners are counted. -/
namespace ZkasSigner.Swift
open Foundation Foundation.Text Foundation.Script

/-- The length of a buffer, and its address unless that is null. -/
structure RustBuffer where
  len : ℕ
  data : Option ℕ

def RustBuffer.empty : RustBuffer := ⟨0,none⟩

/-- The buffers in use, and the signers with the number of their owners. -/
structure World where
  buffers : Heap (List UInt8)
  signers : Heap (ℕ × Mobile.Signer)

abbrev Script := EStateM Fault World

/-! ### The scaffolding -/

def CALL_SUCCESS : Int8 := 0
def CALL_ERROR : Int8 := 1
def CALL_UNEXPECTED_ERROR : Int8 := 2
def CALL_CANCELLED : Int8 := 3

theorem codes_differ : CALL_ERROR ≠ CALL_SUCCESS ∧ CALL_UNEXPECTED_ERROR ≠ CALL_SUCCESS ∧
    CALL_UNEXPECTED_ERROR ≠ CALL_ERROR := by
  decide

structure RustCallStatus where
  code : Int8
  errorBuf : RustBuffer

/-- What a function of the scaffolding leaves: a code, what it puts into the error buffer, and its value. -/
structure Reply (β : Type) where
  code : Int8
  errorBuf : Option (List UInt8)
  value : β

abbrev BufferReply := Reply (Option (List UInt8))

/-- The functions behind the binding, on the bytes of their text arguments. -/
structure Scaffolding (Rng : Type) where
  contractVersion : ℕ
  checksum : String → ℕ
  accountAddress : List (List UInt8) → UInt32 → BufferReply
  generateWallet : List (List UInt8) → Except String (Bytes 16) → BufferReply
  isValidMnemonic : List (List UInt8) → Reply Int8
  verifyMessage : List (List UInt8) → Reply Int8
  fromSecret : List (List UInt8) → Reply (Option Mobile.Signer)
  accountKey : Mobile.Signer → List (List UInt8) → BufferReply
  address : Mobile.Signer → List (List UInt8) → BufferReply
  signMessage : Mobile.Signer → List (List UInt8) → Rng → BufferReply
  verifyAndSignPayment : Mobile.Signer → List (List UInt8) → UInt64 → UInt64 → BufferReply
  viewingKey : Mobile.Signer → List (List UInt8) → BufferReply

/-- A buffer with these bytes. -/
def allocate (bytes : List UInt8) : Script RustBuffer := fun w =>
  .ok ⟨bytes.length,some w.buffers.next⟩ { w with buffers := w.buffers.alloc bytes }

/-- The bytes of a buffer, which must be in use. -/
def load (buf : RustBuffer) : Script (List UInt8) := fun w =>
  match buf.data with
  | none => .error unwrappedNil w
  | some p =>
    match w.buffers.cells p with
    | none => .error (.fatal "the buffer is not in use") w
    | some bytes => .ok (bytes.take buf.len) w

/-- `ffi_zkas_mobile_rustbuffer_free`. A null buffer is none. -/
def rustbufferFree (buf : RustBuffer) : Script Unit := fun w =>
  match buf.data with
  | none => .ok () w
  | some p =>
    if hp : (w.buffers.cells p).isSome = true then .ok () { w with buffers := w.buffers.put p none hp }
    else .error (.fatal "the buffer is not in use") w

/-- A function takes over the buffers of its arguments. -/
def takeOver (buf : RustBuffer) : Script (List UInt8) := do
  let bytes ← load buf
  rustbufferFree buf
  return bytes

def consume (bufs : List RustBuffer) : Script (List (List UInt8)) := bufs.mapM takeOver

def place : Option (List UInt8) → Script RustBuffer
  | some bytes => allocate bytes
  | none => pure .empty

/-- One owner more. -/
def cloneSigner (pointer : ℕ) : Script ℕ := fun w =>
  if hp : (w.signers.cells pointer).isSome = true then
    let owned := (w.signers.cells pointer).get hp
    .ok pointer { w with signers := w.signers.put pointer (some (owned.1+1,owned.2)) hp }
  else .error (.fatal "the signer is not in use") w

/-- One owner less. With the last one the signer is wiped. -/
def freeSigner (pointer : ℕ) : Script Unit := fun w =>
  if hp : (w.signers.cells pointer).isSome = true then
    let owned := (w.signers.cells pointer).get hp
    .ok () { w with signers := w.signers.put pointer (if owned.1 = 1 then none else some (owned.1-1,owned.2)) hp }
  else .error (.fatal "the signer is not in use") w

def loadSigner (pointer : ℕ) : Script Mobile.Signer := fun w =>
  match w.signers.cells pointer with
  | none => .error (.fatal "the signer is not in use") w
  | some owned => .ok owned.2 w

def placeSigner : Option Mobile.Signer → Script ℕ
  | some signer => fun w => .ok w.signers.next { w with signers := w.signers.alloc (1,signer) }
  | none => pure 0

/-- The status of a call and its value, with what they need in memory. -/
def answer {β γ : Type} (place' : β → Script γ) (reply : Reply β) : Script (RustCallStatus × γ) := do
  let errorBuf ← place reply.errorBuf
  let value ← place' reply.value
  return (⟨reply.code,errorBuf⟩,value)

/-! ### Calling it -/

section
variable {Rng : Type} (S : Scaffolding Rng)

/-- What the binding was made for. -/
def checksums : List (String × ℕ) :=
  [("uniffi_zkas_mobile_checksum_func_account_address",1057),
    ("uniffi_zkas_mobile_checksum_func_generate_wallet",31304),
    ("uniffi_zkas_mobile_checksum_func_is_valid_mnemonic",52094),
    ("uniffi_zkas_mobile_checksum_func_verify_message",13469),
    ("uniffi_zkas_mobile_checksum_method_signer_account_key",59785),
    ("uniffi_zkas_mobile_checksum_method_signer_address",16517),
    ("uniffi_zkas_mobile_checksum_method_signer_sign_message",52243),
    ("uniffi_zkas_mobile_checksum_method_signer_verify_and_sign_payment",43587),
    ("uniffi_zkas_mobile_checksum_method_signer_viewing_key",18334),
    ("uniffi_zkas_mobile_checksum_constructor_signer_from_secret",64227)]

inductive InitializationResult where
  | ok
  | contractVersionMismatch
  | apiChecksumMismatch
  deriving DecidableEq

def initializationResult : InitializationResult :=
  if 26 ≠ S.contractVersion then .contractVersionMismatch
  else if checksums.any fun c => S.checksum c.1 ≠ c.2 then .apiChecksumMismatch
  else .ok

def uniffiEnsureInitialized : Script Unit :=
  match initializationResult S with
  | .ok => pure ()
  | .contractVersionMismatch =>
    throw (.fatal "UniFFI contract version mismatch: try cleaning and rebuilding your project")
  | .apiChecksumMismatch => throw (.fatal "UniFFI API checksum mismatch: try cleaning and rebuilding your project")

/-- A call that cannot fail. -/
def succeed {β : Type} (call : Script β) : Script (RustCallStatus × β) := do
  let value ← call
  return (⟨CALL_SUCCESS,.empty⟩,value)

-- the call that frees a buffer succeeds, so that checking its status comes to nothing
def deallocate (buf : RustBuffer) : Script Unit := do
  uniffiEnsureInitialized S
  rustbufferFree buf

def FfiConverterString.lift (buf : RustBuffer) : Script String :=
  match buf.data with
  | none => do
    deallocate S buf
    return ""
  | some _ => do
    let bytes ← load buf
    let s ← call (unwrap (decodeUtf8 bytes))
    deallocate S buf
    return s

/-- `FfiConverterRustBuffer.lift`: a buffer that is not read to its end is not given back. -/
def liftBuffer {α : Type} (read : Read α) (buf : RustBuffer) : Script α := do
  let bytes ← load buf
  let value ← call (readWhole read bytes)
  deallocate S buf
  return value

def uniffiCheckCallStatus (callStatus : RustCallStatus) (errorHandler : Option (RustBuffer → Script SignerError)) :
    Script Unit :=
  if callStatus.code = CALL_SUCCESS then pure ()
  else if callStatus.code = CALL_ERROR then
    match errorHandler with
    | some errorHandler => do
      let e ← errorHandler callStatus.errorBuf
      throw (.refused e)
    | none => do
      deallocate S callStatus.errorBuf
      throw (.internal .unexpectedRustCallError)
  else if callStatus.code = CALL_UNEXPECTED_ERROR then
    if 0 < callStatus.errorBuf.len then do
      let message ← FfiConverterString.lift S callStatus.errorBuf
      throw (.internal (.rustPanic message))
    else do
      deallocate S callStatus.errorBuf
      throw (.internal (.rustPanic "Rust panic"))
  else if callStatus.code = CALL_CANCELLED then throw (.fatal "Cancellation not supported yet")
  else throw (.internal .unexpectedRustCallStatusCode)

def makeRustCall {β : Type} (callback : Script (RustCallStatus × β))
    (errorHandler : Option (RustBuffer → Script SignerError)) : Script β := do
  uniffiEnsureInitialized S
  let (callStatus,returnedVal) ← callback
  uniffiCheckCallStatus S callStatus errorHandler
  return returnedVal

def rustCall {β : Type} (callback : Script (RustCallStatus × β)) : Script β := makeRustCall S callback none

def rustCallWithError {β : Type} (callback : Script (RustCallStatus × β)) : Script β :=
  makeRustCall S callback (some (liftBuffer S FfiConverterTypeSignerError.read))

/-- `try!`: what is thrown ends the process. -/
def tryForced {α : Type} (x : Script α) : Script α :=
  tryCatch x fun
    | .fatal message => throw (.fatal message)
    | _ => throw (.fatal "'try!' expression unexpectedly raised an error")

/-- `RustBuffer.from`: a count that is no `Int32` ends the process. -/
def RustBuffer.from (bytes : List UInt8) : Script RustBuffer :=
  tryForced (rustCall S (if bytes.length < 2^31 then succeed (allocate bytes)
    else throw (.fatal "Not enough bits to represent the passed value")))

def FfiConverterString.lower (value : String) : Script RustBuffer := RustBuffer.from S (asBytes value)

/-- The text arguments of a call, as its function gets them. -/
def lowered (args : List String) : Script (List (List UInt8)) := do
  let bufs ← args.mapM (FfiConverterString.lower S)
  consume bufs

def FfiConverterBool.lift (value : Int8) : Bool := value ≠ 0

def accountAddress (phrase network : String) (account : UInt32) : Script String := do
  let value ← rustCallWithError S do
    answer place (S.accountAddress (← lowered S [phrase,network]) account)
  FfiConverterString.lift S value

def generateWallet (network : String) (draw : Except String (Bytes 16)) : Script GeneratedWallet := do
  let value ← rustCallWithError S do
    answer place (S.generateWallet (← lowered S [network]) draw)
  liftBuffer S FfiConverterTypeGeneratedWallet.read value

def isValidMnemonic (phrase : String) : Script Bool := do
  let value ← tryForced (rustCall S do
    answer pure (S.isValidMnemonic (← lowered S [phrase])))
  return FfiConverterBool.lift value

def verifyMessage (address message signatureHex : String) : Script Bool := do
  let value ← rustCallWithError S do
    answer pure (S.verifyMessage (← lowered S [address,message,signatureHex]))
  return FfiConverterBool.lift value

namespace Signer

/-- A signer of the binding is its pointer. -/
def fromSecret (secret network : String) : Script ℕ := do
  let pointer ← rustCallWithError S do
    answer placeSigner (S.fromSecret (← lowered S [secret,network]))
  return pointer

def uniffiClonePointer (pointer : ℕ) : Script ℕ := tryForced (rustCall S (succeed (cloneSigner pointer)))

def deinit (pointer : ℕ) : Script Unit := tryForced (rustCall S (succeed (freeSigner pointer)))

/-- A method gets a pointer of its own, and is one of the owners for as long as it runs. -/
def method (pointer : ℕ) (args : List String) (function : Mobile.Signer → List (List UInt8) → BufferReply) :
    Script String := do
  let value ← rustCallWithError S do
    let owner ← uniffiClonePointer S pointer
    let args ← lowered S args
    let signer ← loadSigner owner
    freeSigner owner
    answer place (function signer args)
  FfiConverterString.lift S value

def accountKey (pointer : ℕ) : Script String := method S pointer [] S.accountKey

def address (pointer : ℕ) (network : String) : Script String := method S pointer [network] S.address

def signMessage (pointer : ℕ) (network message : String) (rng : Rng) : Script String :=
  method S pointer [network,message] fun signer args => S.signMessage signer args rng

def verifyAndSignPayment (pointer : ℕ) (network toAddress : String) (amountSompi maxFeeSompi : UInt64)
    (bundleHex disclosureJson alphasJson : String) : Script String :=
  method S pointer [network,toAddress,bundleHex,disclosureJson,alphasJson] fun signer args =>
    S.verifyAndSignPayment signer args amountSompi maxFeeSompi

def viewingKey (pointer : ℕ) : Script String := method S pointer [] S.viewingKey

end Signer

/-! ### Buffers -/

/-- The same buffers and the same owners are there. -/
structure World.Same (w w' : World) : Prop where
  buffers : w'.buffers.cells = w.buffers.cells
  signers : w'.signers.cells = w.signers.cells

theorem World.Same.refl (w : World) : w.Same w := ⟨rfl,rfl⟩

theorem World.Same.trans {w w' w'' : World} (h : w.Same w') (h' : w'.Same w'') : w.Same w'' :=
  ⟨h'.buffers.trans h.buffers,h'.signers.trans h.signers⟩

/-- The world with one buffer more. -/
def World.with (w : World) (bytes : List UInt8) : World := { w with buffers := w.buffers.alloc bytes }

theorem run_allocate (w : World) (bytes : List UInt8) :
    (allocate bytes).run w = .ok ⟨bytes.length,some w.buffers.next⟩ (w.with bytes) := rfl

theorem run_load {w : World} {p : ℕ} {bytes : List UInt8} (h : w.buffers.cells p = some bytes) :
    (load ⟨bytes.length,some p⟩).run w = .ok bytes w := by
  change load _ w = _
  simp only [load,h,List.take_length]

theorem run_free {w : World} {n p : ℕ} (hp : (w.buffers.cells p).isSome = true) :
    (rustbufferFree ⟨n,some p⟩).run w = .ok () { w with buffers := w.buffers.put p none hp } :=
  dif_pos hp

theorem with_cell (w : World) (bytes : List UInt8) : (w.with bytes).buffers.cells w.buffers.next = some bytes :=
  Function.update_self ..

/-- A buffer that is made and given back leaves nothing. -/
theorem run_free_with (w : World) (bytes : List UInt8) : ∃ w', w.Same w' ∧
    (rustbufferFree ⟨bytes.length,some w.buffers.next⟩).run (w.with bytes) = .ok () w' := by
  have hp : ((w.with bytes).buffers.cells w.buffers.next).isSome = true := by rw [with_cell]; rfl
  refine ⟨_,?_,run_free hp⟩
  refine ⟨?_,rfl⟩
  change Function.update (Function.update w.buffers.cells w.buffers.next (some bytes)) w.buffers.next none = _
  rw [Function.update_idem,Function.update_eq_self_iff]
  exact w.buffers.next_unused.symm

/-- The buffers of these contents at their addresses. -/
def buffersOf (held : List (ℕ × List UInt8)) : List RustBuffer := held.map fun c => ⟨c.2.length,some c.1⟩

/-- A function that takes over its buffers in order leaves none of them. -/
theorem run_consume {base : Heap (List UInt8)} {held : List (ℕ × List UInt8)} {w : World}
    (h : base.Holds held w.buffers) : ∃ w', (consume (buffersOf held)).run w = .ok (held.map Prod.snd) w' ∧
      w'.buffers.cells = base.cells ∧ w'.signers = w.signers := by
  induction held generalizing w with
  | nil => exact ⟨w,rfl,h.restored,rfl⟩
  | cons c held ih =>
    obtain ⟨p,bytes⟩ := c
    have hp : (w.buffers.cells p).isSome = true := by
      rw [h.head]
      rfl
    obtain ⟨w',hrun,hcells,hsigners⟩ := ih (h.free hp) (w := { w with buffers := w.buffers.put p none hp })
    have hfirst : (takeOver ⟨bytes.length,some p⟩).run w = .ok bytes { w with buffers := w.buffers.put p none hp } := by
      rw [takeOver,run_bind_ok (run_load h.head),run_bind_ok (run_free hp)]
      rfl
    refine ⟨w',?_,hcells,hsigners⟩
    rw [consume] at hrun
    rw [buffersOf,List.map_cons,consume,List.mapM_cons,run_bind_ok hfirst,← buffersOf,run_bind_ok hrun]
    rfl

section
variable {S} (hinit : initializationResult S = .ok)
include hinit

theorem run_uniffiEnsureInitialized (w : World) : (uniffiEnsureInitialized S).run w = .ok () w := by
  rw [uniffiEnsureInitialized,hinit]
  rfl

theorem run_makeRustCall {β : Type} {callback : Script (RustCallStatus × β)} {w w' : World} {status : RustCallStatus}
    {value : β} (h : callback.run w = .ok (status,value) w') (handler : Option (RustBuffer → Script SignerError)) :
    (makeRustCall S callback handler).run w =
      (do uniffiCheckCallStatus S status handler; return value : Script β).run w' := by
  rw [makeRustCall,run_bind_ok (run_uniffiEnsureInitialized hinit w),run_bind_ok h]

theorem run_rustCall {β : Type} {callback : Script (RustCallStatus × β)} {w w' : World} {buf : RustBuffer} {value : β}
    (h : callback.run w = .ok (⟨CALL_SUCCESS,buf⟩,value) w') : (rustCall S callback).run w = .ok value w' := by
  rw [rustCall,run_makeRustCall hinit h]
  rfl

omit hinit in
theorem run_tryForced {β : Type} {x : Script β} {w w' : World} {value : β} (h : x.run w = .ok value w') :
    (tryForced x).run w = .ok value w' := by
  rw [tryForced,run_tryCatch,h]

/-- A call that cannot fail hands on its value. -/
theorem run_forced {β : Type} {x : Script β} {w w' : World} {value : β} (h : x.run w = .ok value w') :
    (tryForced (rustCall S (succeed x))).run w = .ok value w' := by
  have hsucceed : (succeed x).run w = .ok (⟨CALL_SUCCESS,.empty⟩,value) w' := by
    rw [succeed,run_bind_ok h]
    rfl
  exact run_tryForced (run_rustCall hinit hsucceed)

theorem run_lower {value : String} (hfits : (asBytes value).length < 2^31) (w : World) :
    (FfiConverterString.lower S value).run w =
      .ok ⟨(asBytes value).length,some w.buffers.next⟩ (w.with (asBytes value)) := by
  rw [FfiConverterString.lower,RustBuffer.from,if_pos hfits,run_forced hinit (run_allocate w _)]

theorem run_lowerAll {base : Heap (List UInt8)} {held : List (ℕ × List UInt8)} {args : List String} {w : World}
    (hfits : ∀ arg ∈ args, (asBytes arg).length < 2^31) (h : base.Holds held w.buffers) : ∃ new w',
      (args.mapM (FfiConverterString.lower S)).run w = .ok (buffersOf new) w' ∧
      base.Holds (held ++ new) w'.buffers ∧ w'.signers = w.signers ∧ new.map Prod.snd = args.map asBytes := by
  induction args generalizing held w with
  | nil => exact ⟨[],w,rfl,by rwa [List.append_nil],rfl,rfl⟩
  | cons arg args ih =>
    obtain ⟨new,w',hrun,hholds,hsigners,hcontents⟩ := ih (fun a ha => hfits a (List.mem_cons_of_mem arg ha))
      (h.alloc (asBytes arg)) (w := w.with (asBytes arg))
    refine ⟨(w.buffers.next,asBytes arg)::new,w',?_,?_,hsigners,?_⟩
    · rw [List.mapM_cons,run_bind_ok (run_lower hinit (hfits arg List.mem_cons_self) w),run_bind_ok hrun]
      rfl
    · rwa [List.append_assoc] at hholds
    · rw [List.map_cons,hcontents,List.map_cons]

/-- The text arguments arrive as their bytes, and their buffers are gone. -/
theorem run_lowered {args : List String} (hfits : ∀ arg ∈ args, (asBytes arg).length < 2^31) (w : World) :
    ∃ w', (lowered S args).run w = .ok (args.map asBytes) w' ∧ w.Same w' := by
  obtain ⟨new,w₁,hlower,hholds,hsigners,hcontents⟩ := run_lowerAll hinit hfits (Heap.holds_self w.buffers)
  obtain ⟨w₂,hconsume,hcells,hsame⟩ := run_consume hholds
  rw [List.nil_append,hcontents] at hconsume
  refine ⟨w₂,?_,hcells,?_⟩
  · rw [lowered,run_bind_ok hlower]
    exact hconsume
  · rw [hsame,hsigners]

/-! ### Results -/

theorem run_deallocate (w : World) (bytes : List UInt8) : ∃ w', w.Same w' ∧
    (deallocate S ⟨bytes.length,some w.buffers.next⟩).run (w.with bytes) = .ok () w' := by
  obtain ⟨w',hsame,hfree⟩ := run_free_with w bytes
  refine ⟨w',hsame,?_⟩
  rw [deallocate,run_bind_ok (run_uniffiEnsureInitialized hinit _)]
  exact hfree

theorem run_liftBuffer {α : Type} {read : Read α} {bytes : List UInt8} {value : α} (hread : readWhole read bytes = .ok value)
    (w : World) : ∃ w', w.Same w' ∧
      (liftBuffer S read ⟨bytes.length,some w.buffers.next⟩).run (w.with bytes) = .ok value w' := by
  obtain ⟨w',hsame,hfree⟩ := run_deallocate hinit w bytes
  refine ⟨w',hsame,?_⟩
  rw [liftBuffer,run_bind_ok (run_load (with_cell w bytes)),hread,run_bind_ok (run_call_ok value _),run_bind_ok hfree]
  rfl

theorem run_liftString (text : String) (w : World) : ∃ w', w.Same w' ∧
    (FfiConverterString.lift S ⟨(asBytes text).length,some w.buffers.next⟩).run (w.with (asBytes text)) = .ok text w' := by
  obtain ⟨w',hsame,hfree⟩ := run_deallocate hinit w (asBytes text)
  have hdecode : unwrap (decodeUtf8 (asBytes text)) = .ok text := unwrap_eq_ok.mpr (decodeUtf8_eq_some.mpr rfl)
  refine ⟨w',hsame,?_⟩
  rw [FfiConverterString.lift]
  simp only []
  rw [run_bind_ok (run_load (with_cell w (asBytes text))),hdecode,run_bind_ok (run_call_ok text _),run_bind_ok hfree]
  rfl

/-- What the function behind a call came to, as the scaffolding hands it over. A text that does not fit
its count is not promised anything. -/
def Answers {α β : Type} (lower : α → β → Prop) (default : β) (outcome : Outcome α) (reply : Reply β) : Prop :=
  match outcome with
  | .ok a => reply.code = CALL_SUCCESS ∧ reply.errorBuf = none ∧ lower a reply.value
  | .error (.err reason) => ∀ bytes, FfiConverterTypeSignerError.write (.Signer reason) = .ok bytes →
      reply = ⟨CALL_ERROR,some bytes,default⟩
  | .error (.panic message) => reply = ⟨CALL_UNEXPECTED_ERROR,some (asBytes message),default⟩
  | .error .unfinished => True

/-- What the caller of the binding gets. Nothing is left in memory but what `after` says of a value. -/
def Delivers {α γ : Type} (w : World) (call : Script γ) (outcome : Outcome α) (after : α → γ → World → Prop) : Prop :=
  match outcome with
  | .ok a => ∃ value w', call.run w = .ok value w' ∧ after a value w'
  | .error (.err reason) => (asBytes reason).length < 2^31 →
      ∃ w', call.run w = .error (.refused (.Signer reason)) w' ∧ w.Same w'
  | .error (.panic message) => ∃ w', call.run w =
      .error (.internal (.rustPanic (if message = "" then "Rust panic" else message))) w' ∧ w.Same w'
  | .error .unfinished => True

section
variable {γ : Type} {callback : Script (RustCallStatus × γ)} {w w₁ : World} {g : γ} {bytes : List UInt8}

theorem run_refused {e : SignerError} (hwrite : FfiConverterTypeSignerError.write e = .ok bytes)
    (h : callback.run w = .ok (⟨CALL_ERROR,⟨bytes.length,some w₁.buffers.next⟩⟩,g) (w₁.with bytes)) :
    ∃ w', w₁.Same w' ∧ (rustCallWithError S callback).run w = .error (.refused e) w' := by
  have hread := (readWhole_eq_ok FfiConverterTypeSignerError.read_exact).mpr hwrite
  obtain ⟨w',hsame,hlift⟩ := run_liftBuffer hinit hread w₁
  refine ⟨w',hsame,?_⟩
  rw [rustCallWithError,run_makeRustCall hinit h]
  refine run_bind_error ?_
  rw [uniffiCheckCallStatus,if_neg codes_differ.1,if_pos rfl]
  exact run_bind_ok hlift

theorem run_panicked {message : String}
    (h : callback.run w = .ok (⟨CALL_UNEXPECTED_ERROR,⟨(asBytes message).length,some w₁.buffers.next⟩⟩,g)
      (w₁.with (asBytes message))) : ∃ w', w₁.Same w' ∧ (rustCallWithError S callback).run w =
        .error (.internal (.rustPanic (if message = "" then "Rust panic" else message))) w' := by
  by_cases hempty : message = ""
  · subst hempty
    obtain ⟨w',hsame,hfree⟩ := run_deallocate hinit w₁ (asBytes "")
    have hlength : ¬ 0 < (asBytes "").length := Nat.lt_irrefl 0
    refine ⟨w',hsame,?_⟩
    rw [rustCallWithError,run_makeRustCall hinit h]
    refine run_bind_error ?_
    rw [uniffiCheckCallStatus,if_neg codes_differ.2.1,if_neg codes_differ.2.2,if_pos rfl,if_neg hlength]
    exact run_bind_ok hfree
  · obtain ⟨w',hsame,hlift⟩ := run_liftString hinit message w₁
    have hlength : 0 < (asBytes message).length := by
      rw [List.length_pos_iff]
      exact fun hnil => hempty (asBytes_injective (hnil.trans rfl))
    refine ⟨w',hsame,?_⟩
    rw [rustCallWithError,run_makeRustCall hinit h]
    refine run_bind_error ?_
    rw [uniffiCheckCallStatus,if_neg codes_differ.2.1,if_neg codes_differ.2.2,if_pos rfl,if_pos hlength,if_neg hempty]
    exact run_bind_ok hlift

end

/-- Status and value of a call are delivered, whatever the value is and however it crosses. -/
theorem delivers_of_answers {α β γ δ : Type} {lower : α → β → Prop} {default : β} {outcome : Outcome α} {reply : Reply β}
    {place' : β → Script γ} {k : γ → Script δ} {callback : Script (RustCallStatus × γ)} {after : α → δ → World → Prop}
    {w w₁ : World} (hanswers : Answers lower default outcome reply) (hsame : w.Same w₁)
    (hcallback : callback.run w = (answer place' reply).run w₁)
    {g : γ} (hdefault : ∀ w, (place' default).run w = .ok g w)
    (hvalue : ∀ a v, lower a v → ∃ g w₂ value w₃, (place' v).run w₁ = .ok g w₂ ∧ (k g).run w₂ = .ok value w₃ ∧
      after a value w₃) :
    Delivers w (do k (← rustCallWithError S callback)) outcome after := by
  -- what an error code brings along
  have hfailed : ∀ code bytes, reply = ⟨code,some bytes,default⟩ → callback.run w =
      .ok (⟨code,⟨bytes.length,some w₁.buffers.next⟩⟩,g) (w₁.with bytes) := by
    rintro code bytes rfl
    have hplace : (place (some bytes)).run w₁ = .ok ⟨bytes.length,some w₁.buffers.next⟩ (w₁.with bytes) := rfl
    rw [hcallback,answer,run_bind_ok hplace,run_bind_ok (hdefault _)]
    rfl
  cases outcome with
  | ok a =>
    obtain ⟨hcode,herrorBuf,hlower⟩ := hanswers
    obtain ⟨g,w₂,value,w₃,hplace,hlift,hafter⟩ := hvalue a reply.value hlower
    have hrun : callback.run w = .ok (⟨reply.code,.empty⟩,g) w₂ := by
      rw [hcallback,answer,herrorBuf]
      exact run_bind_ok hplace
    have hcall : (rustCallWithError S callback).run w = .ok g w₂ := by
      rw [rustCallWithError,run_makeRustCall hinit hrun,hcode]
      rfl
    refine ⟨value,w₃,?_,hafter⟩
    rw [run_bind_ok hcall]
    exact hlift
  | error stop =>
    cases stop with
    | err reason =>
      intro hfits
      obtain ⟨bytes,hwrite⟩ := FfiConverterTypeSignerError.exists_write hfits
      have hreply := hanswers _ hwrite
      obtain ⟨w',hsame',hrun⟩ := run_refused hinit (g := g) hwrite (hfailed _ _ hreply)
      exact ⟨w',run_bind_error hrun,hsame.trans hsame'⟩
    | panic message =>
      obtain ⟨w',hsame',hrun⟩ := run_panicked hinit (g := g) (hfailed _ _ hanswers)
      exact ⟨w',run_bind_error hrun,hsame.trans hsame'⟩
    | unfinished => trivial

/-- A value that is no buffer crosses as it is. -/
theorem delivers_value {β γ : Type} {lift : β → γ} {default : β} {outcome : Outcome γ}
    {args : List String} {fn : List (List UInt8) → Reply β} {w : World}
    (hfits : ∀ arg ∈ args, (asBytes arg).length < 2^31)
    (hanswers : Answers (fun a v => lift v = a) default outcome (fn (args.map asBytes))) :
    Delivers w (do return lift (← rustCallWithError S (do answer pure (fn (← lowered S args))))) outcome
      fun a got w' => got = a ∧ w.Same w' := by
  obtain ⟨w₁,hlowered,hsame⟩ := run_lowered hinit hfits w
  refine delivers_of_answers hinit (k := fun v => pure (lift v)) hanswers hsame (run_bind_ok hlowered) (fun _ => rfl) ?_
  intro a v hv
  exact ⟨v,w₁,lift v,w₁,rfl,rfl,hv,hsame⟩

/-- A value that is a buffer is lifted from it. -/
theorem delivers_buffer {α γ : Type} {lift : RustBuffer → Script γ} {written : α → List UInt8 → Prop}
    {outcome : Outcome α} {reply : BufferReply} {f : α → γ} {callback : Script (RustCallStatus × RustBuffer)}
    {w w₁ : World} (hanswers : Answers (fun a v => ∃ bytes, written a bytes ∧ v = some bytes) none outcome reply)
    (hsame : w.Same w₁) (hcallback : callback.run w = (answer place reply).run w₁)
    (hlift : ∀ a bytes (w : World), written a bytes → ∃ w', w.Same w' ∧
      (lift ⟨bytes.length,some w.buffers.next⟩).run (w.with bytes) = .ok (f a) w') :
    Delivers w (do lift (← rustCallWithError S callback)) outcome fun a got w' => got = f a ∧ w.Same w' := by
  refine delivers_of_answers hinit hanswers hsame hcallback (fun _ => rfl) ?_
  rintro a v ⟨bytes,hwritten,rfl⟩
  obtain ⟨w',hsame',hrun⟩ := hlift a bytes w₁ hwritten
  exact ⟨_,_,_,w',rfl,hrun,rfl,hsame.trans hsame'⟩

/-- A text that is returned. -/
def TextOf (a : String) (reply : Option (List UInt8)) : Prop := ∃ bytes, bytes = asBytes a ∧ reply = some bytes

theorem delivers_text {outcome : Outcome String} {reply : BufferReply} {callback : Script (RustCallStatus × RustBuffer)}
    {w w₁ : World} (hanswers : Answers TextOf none outcome reply) (hsame : w.Same w₁)
    (hcallback : callback.run w = (answer place reply).run w₁) :
    Delivers w (do FfiConverterString.lift S (← rustCallWithError S callback)) outcome
      fun text got w' => got = text ∧ w.Same w' := by
  refine delivers_buffer hinit (f := id) hanswers hsame hcallback ?_
  rintro text _ w rfl
  exact run_liftString hinit text w

/-! ### Signers -/

/-- A signer with this many owners. -/
def World.Owns (w : World) (pointer owners : ℕ) (signer : Mobile.Signer) : Prop :=
  w.signers.cells pointer = some (owners,signer)

omit hinit in
theorem run_cloneSigner {w : World} {pointer owners : ℕ} {signer : Mobile.Signer} (h : w.Owns pointer owners signer) :
    ∃ w', (cloneSigner pointer).run w = .ok pointer w' ∧ w'.buffers = w.buffers ∧
      w'.signers.cells = Function.update w.signers.cells pointer (some (owners+1,signer)) := by
  have hcell : w.signers.cells pointer = some (owners,signer) := h
  have hp : (w.signers.cells pointer).isSome = true := by
    rw [hcell]
    rfl
  refine ⟨_,dif_pos hp,rfl,?_⟩
  rw [Heap.put_cells]
  simp only [hcell,Option.get_some]

omit hinit in
theorem run_freeSigner {w : World} {pointer owners : ℕ} {signer : Mobile.Signer} (h : w.Owns pointer owners signer) :
    ∃ w', (freeSigner pointer).run w = .ok () w' ∧ w'.buffers = w.buffers ∧ w'.signers.cells =
      Function.update w.signers.cells pointer (if owners = 1 then none else some (owners-1,signer)) := by
  have hcell : w.signers.cells pointer = some (owners,signer) := h
  have hp : (w.signers.cells pointer).isSome = true := by
    rw [hcell]
    rfl
  refine ⟨_,dif_pos hp,rfl,?_⟩
  rw [Heap.put_cells]
  simp only [hcell,Option.get_some]

theorem delivers_method {outcome : Outcome String} {pointer owners : ℕ} {signer : Mobile.Signer} {args : List String}
    {function : Mobile.Signer → List (List UInt8) → BufferReply} {w : World} (howns : w.Owns pointer (owners+1) signer)
    (hfits : ∀ arg ∈ args, (asBytes arg).length < 2^31)
    (hanswers : Answers TextOf none outcome (function signer (args.map asBytes))) :
    Delivers w (Signer.method S pointer args function) outcome fun text got w' => got = text ∧ w.Same w' := by
  obtain ⟨w₁,hclone,hbuffers₁,hsigners₁⟩ := run_cloneSigner howns
  obtain ⟨w₂,hlowered,hsame₂⟩ := run_lowered hinit hfits w₁
  have howns₂ : w₂.Owns pointer (owners+1+1) signer := by
    rw [World.Owns,hsame₂.signers,hsigners₁,Function.update_self]
  obtain ⟨w₃,hfree,hbuffers₃,hsigners₃⟩ := run_freeSigner howns₂
  have hload : (loadSigner pointer).run w₂ = .ok signer w₂ := by
    change loadSigner pointer w₂ = _
    simp only [loadSigner,show w₂.signers.cells pointer = _ from howns₂]
  have hsame : w.Same w₃ := by
    refine ⟨?_,?_⟩
    · rw [hbuffers₃,hsame₂.buffers,hbuffers₁]
    · rw [hsigners₃,if_neg (by omega),hsame₂.signers,hsigners₁,Function.update_idem,Nat.add_sub_cancel]
      exact Function.update_eq_self_iff.mpr howns.symm
  have hpointer : (Signer.uniffiClonePointer S pointer).run w = .ok pointer w₁ := run_forced hinit hclone
  refine delivers_text hinit hanswers hsame ?_
  rw [run_bind_ok hpointer,run_bind_ok hlowered,run_bind_ok hload,run_bind_ok hfree]

/-- The last owner goes, and the signer with it. -/
theorem run_deinit {w : World} {pointer : ℕ} {signer : Mobile.Signer} (howns : w.Owns pointer 1 signer) :
    ∃ w', (Signer.deinit S pointer).run w = .ok () w' ∧ w'.buffers = w.buffers ∧
      w'.signers.cells = Function.update w.signers.cells pointer none := by
  obtain ⟨w',hfree,hbuffers,hsigners⟩ := run_freeSigner howns
  exact ⟨w',run_forced hinit hfree,hbuffers,hsigners⟩

end
end

end ZkasSigner.Swift
