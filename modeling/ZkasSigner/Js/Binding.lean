import ZkasSigner.Js.Calls

/-! The JavaScript glue is the wallet's library: each of its calls comes to what the function behind it
comes to, and leaves nothing in the library's memory. -/
namespace ZkasSigner
open Foundation Foundation.Text Foundation.Outcome Foundation.Script

/-- What the exported functions run on besides: a signature that releases one spend. -/
structure GlueCrates extends MintCrates where
  signSpendAuthFromSeed : Bytes 32 → Bytes 32 → Bytes 32 → Rng → Option (Bytes 64)

/-- `sign_spend_auth` signs what it is told to. -/
def Money.signSpendAuth (C : GlueCrates) (seedHex alphaHex sighashHex : String) (rng : C.Rng) : Outcome String := do
  let seed ← parseSeed C.toMoneyCrates seedHex
  let alpha ← parse32 C.hex alphaHex "alpha"
  let sighash ← parse32 C.hex sighashHex "sighash"
  let sig ← okOr "invalid seed or alpha" (C.signSpendAuthFromSeed seed alpha sighash rng)
  return C.hex.encode sig.val

namespace Js

section
variable (C : GlueCrates) (J : Money.PaymentJson) (R : Runtime) (X : Exports C.Rng)

/-- Behind each export is the library's function. -/
structure Exports.Documented : Prop where
  fvkHex : ∀ seedHex, Answers id (Money.fvkHex C.toWalletCrates seedHex) (X.fvkHex [asBytes seedHex])
  newWalletMnemonic : ∀ network draw, Answers (fun w => (w.mnemonic,w.address))
    (NewWallet.newWalletMnemonic C.toMintCrates network draw) (X.newWalletMnemonic [asBytes network] draw)
  accountSeedHex : ∀ mnemonic account, Answers id (Money.accountSeedHex C.toWalletCrates mnemonic account)
    (X.accountSeedHex [asBytes mnemonic] account)
  addressFromSeed : ∀ seedHex network, Answers id (Money.addressFromSeed C.toWalletCrates seedHex network)
    (X.addressFromSeed [asBytes seedHex,asBytes network])
  accountAddress : ∀ mnemonic network account,
    Answers id (Money.accountAddress C.toWalletCrates mnemonic network account)
      (X.accountAddress [asBytes mnemonic,asBytes network] account)
  sign : ∀ seedHex network message rng, Answers (fun s => (s.address,s.signatureHex))
    (Money.sign C.toWalletCrates seedHex network message rng) (X.sign [asBytes seedHex,asBytes network,asBytes message] rng)
  verify : ∀ address message signatureHex, Answers id (Money.verify C.toWalletCrates address message signatureHex)
    (X.verify [asBytes address,asBytes message,asBytes signatureHex])
  newWallet : ∀ network draws, Answers (fun w => (w.seedHex,w.address))
    (NewWallet.newWallet C.toMintCrates network draws) (X.newWallet [asBytes network] draws)
  signSpendAuth : ∀ seedHex alphaHex sighashHex rng, Answers id (Money.signSpendAuth C seedHex alphaHex sighashHex rng)
    (X.signSpendAuth [asBytes seedHex,asBytes alphaHex,asBytes sighashHex] rng)
  isValidMnemonic : ∀ secret, Answers id (.ok (Money.isValidMnemonic C.toWalletCrates secret))
    (X.isValidMnemonic [asBytes secret])
  verifyAndSignPayment : ∀ seedHex network toAddress amountSompi maxFeeSompi bundleHex disclosureJson alphasJson,
    Answers id (Money.verifyAndSignPayment C.toMoneyCrates J
        ⟨seedHex,network,toAddress,amountSompi,maxFeeSompi,bundleHex,disclosureJson,alphasJson⟩)
      (X.verifyAndSignPayment [asBytes seedHex,asBytes network,asBytes toAddress,asBytes bundleHex,
        asBytes disclosureJson,asBytes alphasJson] amountSompi maxFeeSompi)

/-- In a sound memory every call of the glue comes to what the library's own function comes to on the
text of its arguments. Its texts are given back, and an object keeps its two until it is freed. After a trap
memory is sound and the tables are as they were, but for the object that was read; arguments may be left behind. -/
structure Glue (w : World) : Prop where
  fvkHex : ∀ seedHex, Delivers w (fvkHex R X seedHex) (Money.fvkHex C.toWalletCrates (wellFormed seedHex)) (Text w)
  newWalletMnemonic : ∀ network draw, Delivers w (newWalletMnemonic R X network draw)
    (NewWallet.newWalletMnemonic C.toMintCrates (wellFormed network) draw)
    fun wallet => Made w (wallet.mnemonic,wallet.address)
  accountSeedHex : ∀ mnemonic account, Delivers w (accountSeedHex R X mnemonic account)
    (Money.accountSeedHex C.toWalletCrates (wellFormed mnemonic) account) (Text w)
  addressFromSeed : ∀ seedHex network, Delivers w (addressFromSeed R X seedHex network)
    (Money.addressFromSeed C.toWalletCrates (wellFormed seedHex) (wellFormed network)) (Text w)
  accountAddress : ∀ mnemonic network account, Delivers w (accountAddress R X mnemonic network account)
    (Money.accountAddress C.toWalletCrates (wellFormed mnemonic) (wellFormed network) account) (Text w)
  sign : ∀ seedHex network message rng, Delivers w (sign R X seedHex network message rng)
    (Money.sign C.toWalletCrates (wellFormed seedHex) (wellFormed network) (wellFormed message) rng)
    fun signature => Made w (signature.address,signature.signatureHex)
  verify : ∀ address message signatureHex, Delivers w (verify R X address message signatureHex)
    (Money.verify C.toWalletCrates (wellFormed address) (wellFormed message) (wellFormed signatureHex))
    fun b got w' => got = b ∧ w.Same w'
  newWallet : ∀ network draws, Delivers w (newWallet R X network draws)
    (NewWallet.newWallet C.toMintCrates (wellFormed network) draws) fun wallet => Made w (wallet.seedHex,wallet.address)
  signSpendAuth : ∀ seedHex alphaHex sighashHex rng, Delivers w (signSpendAuth R X seedHex alphaHex sighashHex rng)
    (Money.signSpendAuth C (wellFormed seedHex) (wellFormed alphaHex) (wellFormed sighashHex) rng) (Text w)
  isValidMnemonic : ∀ secret, Ends (isValidMnemonic R X secret) w
    (fun got w' => got = Money.isValidMnemonic C.toWalletCrates (wellFormed secret) ∧ w.Same w') (Trapped w)
  verifyAndSignPayment : ∀ seedHex network toAddress amountSompi maxFeeSompi bundleHex disclosureJson alphasJson,
    Delivers w (verifyAndSignPayment R X seedHex network toAddress amountSompi maxFeeSompi bundleHex disclosureJson alphasJson)
      (Money.verifyAndSignPayment C.toMoneyCrates J ⟨wellFormed seedHex,wellFormed network,wellFormed toAddress,
        amountSompi,maxFeeSompi,wellFormed bundleHex,wellFormed disclosureJson,wellFormed alphasJson⟩) (Text w)
  getter : ∀ ptr object, w.handles.objects.cells ptr = some object → ∀ field : String × String → String,
    Ends (getter R field ptr) w (Text w (field object.texts)) (Unread w ptr object)
  free : ∀ ptr object, w.handles.objects.cells ptr = some object → ∃ w', (freeObject ptr).run w = .ok () w' ∧
    w'.memory = w.memory ∧ w'.handles.externrefs = w.handles.externrefs ∧
    w'.handles.objects.cells = Function.update w.handles.objects.cells ptr none

variable {C J R X}

theorem glue_delivers (hA : R.allocator.Documented) (h : X.Documented C J) {w : World} (hsound : w.memory.Sound) :
    Glue C J R X w where
  fvkHex seedHex := textCall_delivers hA X.fvkHex [seedHex] hsound (h.fvkHex _)
  newWalletMnemonic network draw :=
    objectCall_delivers hA (X.newWalletMnemonic · draw) [network] hsound (h.newWalletMnemonic _ draw)
  accountSeedHex mnemonic account :=
    textCall_delivers hA (X.accountSeedHex · account) [mnemonic] hsound (h.accountSeedHex _ account)
  addressFromSeed seedHex network := textCall_delivers hA X.addressFromSeed [seedHex,network] hsound (h.addressFromSeed _ _)
  accountAddress mnemonic network account :=
    textCall_delivers hA (X.accountAddress · account) [mnemonic,network] hsound (h.accountAddress _ _ account)
  sign seedHex network message rng :=
    objectCall_delivers hA (X.sign · rng) [seedHex,network,message] hsound (h.sign _ _ _ rng)
  verify address message signatureHex :=
    boolCall_delivers hA X.verify [address,message,signatureHex] hsound (h.verify _ _ _)
  newWallet network draws :=
    objectCall_delivers hA (X.newWallet · draws) [network] hsound (h.newWallet _ draws)
  signSpendAuth seedHex alphaHex sighashHex rng :=
    textCall_delivers hA (X.signSpendAuth · rng) [seedHex,alphaHex,sighashHex] hsound (h.signSpendAuth _ _ _ rng)
  isValidMnemonic secret := (boolCall_delivers hA X.isValidMnemonic [secret] hsound (h.isValidMnemonic _)).ok rfl
  verifyAndSignPayment seedHex network toAddress amountSompi maxFeeSompi bundleHex disclosureJson alphasJson :=
    textCall_delivers hA (X.verifyAndSignPayment · amountSompi maxFeeSompi)
      [seedHex,network,toAddress,bundleHex,disclosureJson,alphasJson] hsound
      (h.verifyAndSignPayment _ _ _ amountSompi maxFeeSompi _ _ _)
  getter _ _ hobject field := getter_ends hA hsound hobject field
  free _ _ hobject := run_freeObject hobject

end
end Js

/-! ### Recorded calls

Exports with the library of the recorded phrase behind them. -/
namespace Recorded
open Money Js

def glueCrates : GlueCrates where
  toMintCrates := mintCrates
  signSpendAuthFromSeed _ _ _ _ := none

def exportOf {α β : Type} (lower : α → β) : Outcome α → Js.Reply β
  | .ok a => .value (lower a)
  | .error (.err reason) => .thrown (Utf16.ofString reason)
  | .error _ => .trap

theorem answers_exportOf {α β : Type} (lower : α → β) (outcome : Outcome α) :
    Js.Answers lower outcome (exportOf lower outcome) := by
  constructor <;> rintro _ rfl <;> rfl

def exports : Exports glueCrates.Rng where
  fvkHex args := exportOf id (Money.fvkHex glueCrates.toWalletCrates (textAt args 0))
  newWalletMnemonic args draw := exportOf (fun w => (w.mnemonic,w.address))
    (NewWallet.newWalletMnemonic glueCrates.toMintCrates (textAt args 0) draw)
  accountSeedHex args account := exportOf id (Money.accountSeedHex glueCrates.toWalletCrates (textAt args 0) account)
  addressFromSeed args := exportOf id (Money.addressFromSeed glueCrates.toWalletCrates (textAt args 0) (textAt args 1))
  accountAddress args account := exportOf id
    (Money.accountAddress glueCrates.toWalletCrates (textAt args 0) (textAt args 1) account)
  sign args rng := exportOf (fun s => (s.address,s.signatureHex))
    (Money.sign glueCrates.toWalletCrates (textAt args 0) (textAt args 1) (textAt args 2) rng)
  verify args := exportOf id
    (Money.verify glueCrates.toWalletCrates (textAt args 0) (textAt args 1) (textAt args 2))
  newWallet args draws := exportOf (fun w => (w.seedHex,w.address))
    (NewWallet.newWallet glueCrates.toMintCrates (textAt args 0) draws)
  signSpendAuth args rng := exportOf id
    (Money.signSpendAuth glueCrates (textAt args 0) (textAt args 1) (textAt args 2) rng)
  isValidMnemonic args := exportOf id (.ok (Money.isValidMnemonic glueCrates.toWalletCrates (textAt args 0)))
  verifyAndSignPayment args amountSompi maxFeeSompi := exportOf id (Money.verifyAndSignPayment glueCrates.toMoneyCrates
    Prepared.json ⟨textAt args 0,textAt args 1,textAt args 2,amountSompi,maxFeeSompi,textAt args 3,textAt args 4,textAt args 5⟩)

theorem exports_documented : exports.Documented glueCrates Prepared.json := by
  constructor <;> intros <;> simp only [exports,textAt_zero,textAt_succ] <;> exact answers_exportOf _ _

end Recorded

namespace Js
open Recorded Money

def Runtime.recorded : Runtime := ⟨.bump,true,true⟩

theorem glue_delivers_recorded : ∃ ptr w',
    (newWallet .recorded exports (Utf16.ofString "mainnet") [.ok phraseKey]).run (World.initial Nat.succ Nat.succ) =
      .ok ptr w' ∧
      w'.handles.objects.cells ptr = some ⟨0,hexCrate.encode phraseKey.val,addressText .mainnet⟩ := by
  have hglue := glue_delivers (R := .recorded) Allocator.bump_documented exports_documented
    (World.initial_sound Nat.succ Nat.succ)
  have houtcome : NewWallet.newWallet glueCrates.toMintCrates (wellFormed (Utf16.ofString "mainnet")) [.ok phraseKey] =
      .ok ⟨hexCrate.encode phraseKey.val,addressText .mainnet⟩ := by
    rw [wellFormed_ofString]
    decide +kernel
  have hroom : ((newWallet .recorded exports (Utf16.ofString "mainnet") [.ok phraseKey]).run
      (World.initial Nat.succ Nat.succ) matches .ok _ _) = true := by
    decide +kernel
  have hnew := (hglue.newWallet (Utf16.ofString "mainnet") [.ok phraseKey]).ok houtcome
  cases hrun : (newWallet .recorded exports (Utf16.ofString "mainnet") [.ok phraseKey]).run
      (World.initial Nat.succ Nat.succ) with
  | ok ptr w' =>
    refine ⟨ptr,w',rfl,?_⟩
    exact (hnew.ok hrun).cell
  | error e w' =>
    rw [hrun] at hroom
    cases hroom

end Js
end ZkasSigner
