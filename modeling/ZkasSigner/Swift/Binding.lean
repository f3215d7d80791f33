import ZkasSigner.NewWallet
import ZkasSigner.Swift.Calls

/-! The Swift binding is the phone's library: each of its calls comes to what the function behind it
comes to, and leaves nothing in memory. -/
namespace ZkasSigner.Swift
open Foundation Foundation.Text Foundation.Script

def Fits (args : List String) : Prop := ∀ arg ∈ args, (asBytes arg).length < 2^31

instance (args : List String) : Decidable (Fits args) := inferInstanceAs (Decidable (∀ arg ∈ args, _))

def WalletOf (w : NewWallet.MnemonicWallet) (reply : Option (List UInt8)) : Prop :=
  ∃ bytes, FfiConverterTypeGeneratedWallet.write ⟨w.mnemonic,w.address⟩ = .ok bytes ∧ reply = some bytes

def BoolOf (b : Bool) (reply : Int8) : Prop := FfiConverterBool.lift reply = b

section
variable (C : MintCrates) (J : Money.PaymentJson) (S : Scaffolding C.Rng)

/-- The scaffolding is the one the binding was made for, and behind each of its functions is that of
the phone's library. -/
structure Scaffolding.Documented : Prop where
  initialized : initializationResult S = .ok
  accountAddress : ∀ phrase network account,
    Answers TextOf none (Money.accountAddress C.toWalletCrates phrase network account)
      (S.accountAddress [asBytes phrase,asBytes network] account)
  generateWallet : ∀ network draw,
    Answers WalletOf none (NewWallet.generateWallet C network draw) (S.generateWallet [asBytes network] draw)
  isValidMnemonic : ∀ phrase, Answers BoolOf 0 (.ok (Money.isValidMnemonic C.toWalletCrates phrase))
    (S.isValidMnemonic [asBytes phrase])
  verifyMessage : ∀ address message signatureHex,
    Answers BoolOf 0 (Money.verify C.toWalletCrates address message signatureHex)
      (S.verifyMessage [asBytes address,asBytes message,asBytes signatureHex])
  fromSecret : ∀ secret network,
    Answers (fun signer reply => reply = some signer) none (Mobile.fromSecret C.toWalletCrates secret network)
      (S.fromSecret [asBytes secret,asBytes network])
  accountKey : ∀ signer : Mobile.Signer,
    Answers TextOf none (signer.accountKey C.toWalletCrates) (S.accountKey signer [])
  address : ∀ (signer : Mobile.Signer) network,
    Answers TextOf none (signer.address C.toWalletCrates network) (S.address signer [asBytes network])
  signMessage : ∀ (signer : Mobile.Signer) network message rng,
    Answers TextOf none (signer.signMessage C.toWalletCrates network message rng)
      (S.signMessage signer [asBytes network,asBytes message] rng)
  verifyAndSignPayment : ∀ (signer : Mobile.Signer) network toAddress amountSompi maxFeeSompi bundleHex disclosureJson alphasJson,
    Answers TextOf none (signer.verifyAndSignPayment C.toWalletCrates J network toAddress amountSompi maxFeeSompi bundleHex
        disclosureJson alphasJson)
      (S.verifyAndSignPayment signer [asBytes network,asBytes toAddress,asBytes bundleHex,asBytes disclosureJson,
        asBytes alphasJson] amountSompi maxFeeSompi)
  viewingKey : ∀ signer : Mobile.Signer,
    Answers TextOf none (signer.viewingKey C.toWalletCrates) (S.viewingKey signer [])

/-- The value itself, and memory as it was. -/
def Returned {α : Type} (w : World) (a got : α) (w' : World) : Prop := got = a ∧ w.Same w'

/-- Every call of the binding comes to what the library's own function comes to, and gives back what it
took of memory. A new signer has one owner, and is gone with it. -/
structure Binding : Prop where
  accountAddress : ∀ w phrase network account, Fits [phrase,network] →
    Delivers w (accountAddress S phrase network account)
      (Money.accountAddress C.toWalletCrates phrase network account) (Returned w)
  generateWallet : ∀ w network draw, Fits [network] →
    Delivers w (generateWallet S network draw) (NewWallet.generateWallet C network draw)
      fun wallet got w' => Returned w ⟨wallet.mnemonic,wallet.address⟩ got w'
  isValidMnemonic : ∀ w phrase, Fits [phrase] → ∃ w',
    (isValidMnemonic S phrase).run w = .ok (Money.isValidMnemonic C.toWalletCrates phrase) w' ∧ w.Same w'
  verifyMessage : ∀ w address message signatureHex, Fits [address,message,signatureHex] →
    Delivers w (verifyMessage S address message signatureHex)
      (Money.verify C.toWalletCrates address message signatureHex) (Returned w)
  fromSecret : ∀ w secret network, Fits [secret,network] →
    Delivers w (Signer.fromSecret S secret network) (Mobile.fromSecret C.toWalletCrates secret network)
      fun signer pointer w' => w.signers.cells pointer = none ∧ w'.buffers.cells = w.buffers.cells ∧
        w'.signers.cells = Function.update w.signers.cells pointer (some (1,signer))
  accountKey : ∀ w pointer owners signer, w.Owns pointer (owners+1) signer →
    Delivers w (Signer.accountKey S pointer) (signer.accountKey C.toWalletCrates) (Returned w)
  address : ∀ w pointer owners signer network, w.Owns pointer (owners+1) signer → Fits [network] →
    Delivers w (Signer.address S pointer network) (signer.address C.toWalletCrates network) (Returned w)
  signMessage : ∀ w pointer owners signer network message rng, w.Owns pointer (owners+1) signer →
    Fits [network,message] → Delivers w (Signer.signMessage S pointer network message rng)
      (signer.signMessage C.toWalletCrates network message rng) (Returned w)
  verifyAndSignPayment : ∀ w pointer owners signer network toAddress amountSompi maxFeeSompi bundleHex disclosureJson alphasJson,
    w.Owns pointer (owners+1) signer → Fits [network,toAddress,bundleHex,disclosureJson,alphasJson] →
    Delivers w (Signer.verifyAndSignPayment S pointer network toAddress amountSompi maxFeeSompi bundleHex disclosureJson alphasJson)
      (signer.verifyAndSignPayment C.toWalletCrates J network toAddress amountSompi maxFeeSompi bundleHex disclosureJson alphasJson)
      (Returned w)
  viewingKey : ∀ w pointer owners signer, w.Owns pointer (owners+1) signer →
    Delivers w (Signer.viewingKey S pointer) (signer.viewingKey C.toWalletCrates) (Returned w)
  deinit : ∀ w pointer signer, w.Owns pointer 1 signer → ∃ w', (Signer.deinit S pointer).run w = .ok () w' ∧
    w'.buffers.cells = w.buffers.cells ∧ w'.signers.cells = Function.update w.signers.cells pointer none

variable {C J S}

/-- A signer that is made has one owner. -/
theorem fromSecret_delivers (h : S.Documented C J) (w : World) (secret network : String) (hfits : Fits [secret,network]) :
    Delivers w (Signer.fromSecret S secret network) (Mobile.fromSecret C.toWalletCrates secret network)
      fun signer pointer w' => w.signers.cells pointer = none ∧ w'.buffers.cells = w.buffers.cells ∧
        w'.signers.cells = Function.update w.signers.cells pointer (some (1,signer)) := by
  obtain ⟨w₁,hlowered,hsame⟩ := run_lowered h.initialized hfits w
  have hdefault : ∀ w, (placeSigner none).run w = .ok 0 w := fun _ => rfl
  rw [Signer.fromSecret,← bind_pure (rustCallWithError S _)]
  refine delivers_of_answers h.initialized (h.fromSecret secret network) hsame ?_ hdefault ?_
  · exact run_bind_ok hlowered
  · rintro signer _ rfl
    refine ⟨_,_,_,_,rfl,rfl,?_,hsame.buffers,?_⟩
    · rw [← hsame.signers]
      exact w₁.signers.next_unused
    · rw [← hsame.signers]
      rfl

theorem binding_delivers (h : S.Documented C J) : Binding C J S where
  accountAddress w phrase network account hfits := by
    obtain ⟨w₁,hlowered,hsame⟩ := run_lowered h.initialized hfits w
    exact delivers_text h.initialized (h.accountAddress phrase network account) hsame (run_bind_ok hlowered)
  generateWallet w network draw hfits := by
    obtain ⟨w₁,hlowered,hsame⟩ := run_lowered h.initialized hfits w
    refine delivers_buffer h.initialized (h.generateWallet network draw) hsame (run_bind_ok hlowered) ?_
    intro wallet bytes w hwritten
    exact run_liftBuffer h.initialized ((readWhole_eq_ok FfiConverterTypeGeneratedWallet.read_exact).mpr hwritten) w
  isValidMnemonic w phrase hfits := by
    obtain ⟨w₁,hlowered,hsame⟩ := run_lowered h.initialized hfits w
    obtain ⟨hcode,herrorBuf,hvalue⟩ := h.isValidMnemonic phrase
    have hanswer : (do answer pure (S.isValidMnemonic (← lowered S [phrase])) : Script (RustCallStatus × Int8)).run w =
        .ok (⟨CALL_SUCCESS,.empty⟩,(S.isValidMnemonic [asBytes phrase]).value) w₁ := by
      rw [run_bind_ok hlowered]
      change (answer pure (S.isValidMnemonic [asBytes phrase])).run w₁ = _
      rw [answer,herrorBuf,hcode]
      rfl
    refine ⟨w₁,?_,hsame⟩
    rw [← hvalue]
    exact run_bind_ok (run_tryForced (run_rustCall h.initialized hanswer))
  verifyMessage w address message signatureHex hfits :=
    delivers_value h.initialized hfits (h.verifyMessage address message signatureHex)
  fromSecret := fromSecret_delivers h
  accountKey w pointer owners signer howns := delivers_method h.initialized howns nofun (h.accountKey signer)
  address w pointer owners signer network howns hfits :=
    delivers_method h.initialized howns hfits (h.address signer network)
  signMessage w pointer owners signer network message rng howns hfits :=
    delivers_method h.initialized howns hfits (h.signMessage signer network message rng)
  verifyAndSignPayment w pointer owners signer network toAddress amountSompi maxFeeSompi bundleHex disclosureJson
      alphasJson howns hfits :=
    delivers_method h.initialized howns hfits (h.verifyAndSignPayment signer network toAddress amountSompi maxFeeSompi
      bundleHex disclosureJson alphasJson)
  viewingKey w pointer owners signer howns := delivers_method h.initialized howns nofun (h.viewingKey signer)
  deinit w pointer signer howns := by
    obtain ⟨w',hrun,hbuffers,hsigners⟩ := run_deinit h.initialized howns
    exact ⟨w',hrun,by rw [hbuffers],hsigners⟩

end
end ZkasSigner.Swift

/-! ### Recorded calls

A scaffolding with the library of the recorded phrase behind it. -/
namespace ZkasSigner.Recorded
open Foundation Foundation.Text Foundation.Outcome Money Swift

def tooLong : List UInt8 := asBytes "the text does not fit its count"

def replyOf {α β : Type} (lower : α → Except Fault β) (default : β) : Outcome α → Reply β
  | .ok a =>
    match lower a with
    | .ok value => ⟨CALL_SUCCESS,none,value⟩
    | .error _ => ⟨CALL_UNEXPECTED_ERROR,some tooLong,default⟩
  | .error (.err reason) =>
    match FfiConverterTypeSignerError.write (.Signer reason) with
    | .ok bytes => ⟨CALL_ERROR,some bytes,default⟩
    | .error _ => ⟨CALL_UNEXPECTED_ERROR,some tooLong,default⟩
  | .error (.panic message) => ⟨CALL_UNEXPECTED_ERROR,some (asBytes message),default⟩
  | .error .unfinished => ⟨CALL_CANCELLED,none,default⟩

theorem answers_replyOf {α β : Type} {lower : α → Except Fault β} {Of : α → β → Prop} {default : β} {outcome : Outcome α}
    (h : ∀ a, outcome = .ok a → ∃ value, lower a = .ok value ∧ Of a value) :
    Answers Of default outcome (replyOf lower default outcome) := by
  cases outcome with
  | ok a =>
    obtain ⟨value,hlower,hof⟩ := h a rfl
    simp only [replyOf,hlower]
    exact ⟨rfl,rfl,hof⟩
  | error stop =>
    cases stop with
    | err reason =>
      intro bytes hwrite
      simp only [replyOf,hwrite]
    | panic message => rfl
    | unfinished => trivial

def replyText (outcome : Outcome String) : BufferReply := replyOf (fun text => .ok (some (asBytes text))) none outcome

def replyBool (outcome : Outcome Bool) : Reply Int8 := replyOf (fun b => .ok (if b then 1 else 0)) 0 outcome

theorem answers_text (outcome : Outcome String) : Answers TextOf none outcome (replyText outcome) :=
  answers_replyOf fun _ _ => ⟨_,rfl,_,rfl,rfl⟩

theorem answers_bool (outcome : Outcome Bool) : Answers BoolOf 0 outcome (replyBool outcome) :=
  answers_replyOf fun b _ => ⟨_,rfl,by cases b <;> rfl⟩

def scaffolding : Scaffolding mintCrates.Rng where
  contractVersion := 26
  checksum name := (checksums.lookup name).getD 0
  accountAddress args account :=
    replyText (Money.accountAddress mintCrates.toWalletCrates (textAt args 0) (textAt args 1) account)
  generateWallet args draw := replyOf
    (fun w => some <$> FfiConverterTypeGeneratedWallet.write ⟨w.mnemonic,w.address⟩) none
    (NewWallet.generateWallet mintCrates (textAt args 0) draw)
  isValidMnemonic args := replyBool (.ok (Money.isValidMnemonic mintCrates.toWalletCrates (textAt args 0)))
  verifyMessage args :=
    replyBool (Money.verify mintCrates.toWalletCrates (textAt args 0) (textAt args 1) (textAt args 2))
  fromSecret args := replyOf (fun signer => .ok (some signer)) none
    (Mobile.fromSecret mintCrates.toWalletCrates (textAt args 0) (textAt args 1))
  accountKey signer _ := replyText (signer.accountKey mintCrates.toWalletCrates)
  address signer args := replyText (signer.address mintCrates.toWalletCrates (textAt args 0))
  signMessage signer args rng :=
    replyText (signer.signMessage mintCrates.toWalletCrates (textAt args 0) (textAt args 1) rng)
  verifyAndSignPayment signer args amountSompi maxFeeSompi :=
    replyText (signer.verifyAndSignPayment mintCrates.toWalletCrates Prepared.json (textAt args 0) (textAt args 1)
      amountSompi maxFeeSompi (textAt args 2) (textAt args 3) (textAt args 4))
  viewingKey signer _ := replyText (signer.viewingKey mintCrates.toWalletCrates)

theorem exists_write_wallet (pre : Prefix) (raw : Bytes 43) : ∃ bytes, FfiConverterTypeGeneratedWallet.write
    ⟨phrase,addressString mintCrates.toWalletCrates pre raw⟩ = .ok bytes := by
  have hphrase : (asBytes phrase).length < 2^31 := by
    decide +kernel
  have haddress : (asBytes (addressString mintCrates.toWalletCrates pre raw)).length < 2^31 := by
    change (asBytes (printAddress ⟨pre,9,raw.val⟩)).length < 2^31
    have htext : ∀ pre, (asBytes (addressText pre)).length < 2^31 := by
      intro pre
      cases pre <;> decide +kernel
    rw [printAddress]
    split
    · exact htext pre
    · decide +kernel
  rw [FfiConverterTypeGeneratedWallet.write,FfiConverterString.write_eq_ok.mpr ⟨hphrase,rfl⟩,
    FfiConverterString.write_eq_ok.mpr ⟨haddress,rfl⟩]
  exact ⟨_,rfl⟩

theorem scaffolding_documented : scaffolding.Documented mintCrates Prepared.json where
  initialized := by
    decide +kernel
  accountAddress _ _ _ := by
    simp only [scaffolding,textAt_zero,textAt_succ]
    exact answers_text _
  generateWallet network draw := by
    simp only [scaffolding,textAt_zero]
    refine answers_replyOf fun w hw => ?_
    obtain ⟨pre,_,_,_,raw,_,_,_,_,_,rfl⟩ :=
      (NewWallet.newWalletMnemonic_eq_ok spoken_documented mintCrates_documented).mp hw
    obtain ⟨bytes,hwrite⟩ := exists_write_wallet pre raw
    exact ⟨some bytes,congrArg (some <$> ·) hwrite,bytes,hwrite,rfl⟩
  isValidMnemonic _ := by
    simp only [scaffolding,textAt_zero]
    exact answers_bool _
  verifyMessage _ _ _ := by
    simp only [scaffolding,textAt_zero,textAt_succ]
    exact answers_bool _
  fromSecret _ _ := by
    simp only [scaffolding,textAt_zero,textAt_succ]
    exact answers_replyOf fun signer _ => ⟨_,rfl,rfl⟩
  accountKey _ := answers_text _
  address _ _ := by
    simp only [scaffolding,textAt_zero]
    exact answers_text _
  signMessage _ _ _ _ := by
    simp only [scaffolding,textAt_zero,textAt_succ]
    exact answers_text _
  verifyAndSignPayment _ _ _ _ _ _ _ _ := by
    simp only [scaffolding,textAt_zero,textAt_succ]
    exact answers_text _
  viewingKey _ := answers_text _

end ZkasSigner.Recorded

namespace ZkasSigner.Swift
open Foundation Recorded Money

/-- Before the first call, whatever the allocator is to choose. -/
def World.initial (buffers signers : ℕ → ℕ) : World := ⟨.empty buffers,.empty signers⟩

/-- Every buffer is made at the address that was given back last. -/
theorem binding_delivers_recorded : ∃ w', (generateWallet scaffolding "mainnet" (.ok phraseEntropy)).run
    (World.initial (fun _ => 8) Nat.succ) = .ok ⟨phrase,addressText .mainnet⟩ w' ∧
      (World.initial (fun _ => 8) Nat.succ).Same w' := by
  have hbinding := binding_delivers scaffolding_documented
  have hcall := hbinding.generateWallet (World.initial (fun _ => 8) Nat.succ) "mainnet" (.ok phraseEntropy) (by decide +kernel)
  have houtcome : NewWallet.generateWallet mintCrates "mainnet" (.ok phraseEntropy) = .ok ⟨phrase,addressText .mainnet⟩ := by
    decide +kernel
  rw [houtcome] at hcall
  obtain ⟨got,w',hrun,rfl,hsame⟩ := hcall
  exact ⟨w',hrun,hsame⟩

end ZkasSigner.Swift
