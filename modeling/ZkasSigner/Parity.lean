import ZkasSigner.Js.Binding
import ZkasSigner.Swift.Binding

/-! A phone and the browser are one wallet. Through either binding a secret has the same keys and makes
the same signatures, and what the browser writes down for a new wallet is that wallet on a phone. -/
namespace ZkasSigner.Parity
open Foundation Foundation.Text Foundation.Outcome Foundation.Script Money Mobile
open Swift (Fits Returned Scaffolding)
open Js (JsString Runtime Exports)
open Utf16 (ofString)

section
variable (C : GlueCrates) (J : PaymentJson) (R : Runtime) (X : Exports C.Rng) (S : Scaffolding C.Rng)

/-- A call in the browser and one on the phone that both come to this. -/
structure Alike (w : Js.World) (v : Swift.World) (outcome : Outcome String) (x : Js.Script JsString)
    (y : Swift.Script String) : Prop where
  browser : Js.Delivers w x outcome (Js.Text w)
  phone : Swift.Delivers v y outcome (Returned v)

/-- The calls of a signer and those of the browser on its secret. -/
structure Twin (w : Js.World) (v : Swift.World) (secret : String) (pointer : ℕ) : Prop where
  address : ∀ network, Fits [network] → Alike w v (Money.addressFromSeed C.toWalletCrates secret network)
    (Js.addressFromSeed R X (ofString secret) (ofString network)) (Swift.Signer.address S pointer network)
  viewingKey : Alike w v (Money.fvkHex C.toWalletCrates secret) (Js.fvkHex R X (ofString secret))
    (Swift.Signer.viewingKey S pointer)
  signMessage : ∀ network message rng, Fits [network,message] →
    Js.Delivers w (Js.sign R X (ofString secret) (ofString network) (ofString message) rng)
      (Money.sign C.toWalletCrates secret network message rng) (fun s => Js.Made w (s.address,s.signatureHex)) ∧
    Swift.Delivers v (Swift.Signer.signMessage S pointer network message rng)
      (do return (← Money.sign C.toWalletCrates secret network message rng).signatureHex) (Returned v)
  payment : ∀ network toAddress amountSompi maxFeeSompi bundleHex disclosureJson alphasJson,
    Fits [network,toAddress,bundleHex,disclosureJson,alphasJson] →
    Alike w v (Money.verifyAndSignPayment C.toMoneyCrates J
        ⟨secret,network,toAddress,amountSompi,maxFeeSompi,bundleHex,disclosureJson,alphasJson⟩)
      (Js.verifyAndSignPayment R X (ofString secret) (ofString network) (ofString toAddress) amountSompi maxFeeSompi
        (ofString bundleHex) (ofString disclosureJson) (ofString alphasJson))
      (Swift.Signer.verifyAndSignPayment S pointer network toAddress amountSompi maxFeeSompi bundleHex disclosureJson
        alphasJson)

variable {C J R X S}

/-- The wallet of a secret reads it only through its key. -/
theorem actsFor_typed {T : CaseTables} (hp : C.phrases.Documented T) (hhex : C.hex.Documented) (hdig : C.hex.TwoDigits)
    {secret typed network address : String} (htyped : SameWords typed secret)
    (haddress : Money.addressFromSeed C.toWalletCrates secret network = .ok address) :
    fromSecret C.toWalletCrates typed network = .ok ⟨trim typed⟩ ∧
      (Signer.mk (trim typed)).ActsFor C.toWalletCrates J secret := by
  obtain ⟨_,key,_,_,hkey,_,_⟩ := addressFromSeed_eq_ok.mp haddress
  have hresolve : resolveSecret C.toMoneyCrates typed = .ok key :=
    (OneSecret.resolveSecret_congr hp hhex hdig htyped).trans hkey
  obtain ⟨hex,hown,hparse⟩ := (accountKey_resolves hhex hdig hp).mp hresolve
  have hacts := actsFor_of_key (J := J) hown (hparse.trans hkey.symm)
  exact ⟨fromSecret_eq_ok.mpr ⟨rfl,address,(hacts.address network).trans haddress⟩,hacts⟩

section
variable (hA : R.allocator.Documented) (hX : X.Documented C J) (hS : S.Documented C.toMintCrates J)
include hA hX hS

theorem twin_of_actsFor {secret : String} {signer : Signer} (hacts : signer.ActsFor C.toWalletCrates J secret)
    {w : Js.World} (hsound : w.memory.Sound) {v : Swift.World} {pointer owners : ℕ}
    (howns : v.Owns pointer (owners+1) signer) : Twin C J R X S w v secret pointer where
  address network hfits := by
    have hbrowser := Js.textCall_delivers hA X.addressFromSeed [ofString secret,ofString network] hsound
      (hX.addressFromSeed _ _)
    have hphone : Swift.Delivers v (Swift.Signer.address S pointer network) _ (Returned v) :=
      Swift.delivers_method hS.initialized howns hfits (hS.address signer network)
    rw [Js.wellFormed_ofString,Js.wellFormed_ofString] at hbrowser
    rw [hacts.address] at hphone
    exact ⟨hbrowser,hphone⟩
  viewingKey := by
    have hbrowser := Js.textCall_delivers hA X.fvkHex [ofString secret] hsound (hX.fvkHex _)
    have hphone : Swift.Delivers v (Swift.Signer.viewingKey S pointer) _ (Returned v) :=
      Swift.delivers_method hS.initialized howns nofun (hS.viewingKey signer)
    rw [Js.wellFormed_ofString] at hbrowser
    rw [hacts.viewingKey] at hphone
    exact ⟨hbrowser,hphone⟩
  signMessage network message rng hfits := by
    have hbrowser := Js.objectCall_delivers hA (X.sign · rng) [ofString secret,ofString network,ofString message] hsound
      (hX.sign _ _ _ rng)
    have hphone : Swift.Delivers v (Swift.Signer.signMessage S pointer network message rng) _ (Returned v) :=
      Swift.delivers_method hS.initialized howns hfits (hS.signMessage signer network message rng)
    simp only [Js.wellFormed_ofString] at hbrowser
    rw [hacts.signMessage] at hphone
    exact ⟨hbrowser,hphone⟩
  payment network toAddress amountSompi maxFeeSompi bundleHex disclosureJson alphasJson hfits := by
    have hbrowser := Js.textCall_delivers hA (X.verifyAndSignPayment · amountSompi maxFeeSompi)
      [ofString secret,ofString network,ofString toAddress,ofString bundleHex,ofString disclosureJson,ofString alphasJson]
      hsound (hX.verifyAndSignPayment _ _ _ amountSompi maxFeeSompi _ _ _)
    have hphone : Swift.Delivers v (Swift.Signer.verifyAndSignPayment S pointer network toAddress amountSompi maxFeeSompi
        bundleHex disclosureJson alphasJson) _ (Returned v) :=
      Swift.delivers_method hS.initialized howns hfits (hS.verifyAndSignPayment signer network toAddress amountSompi
        maxFeeSompi bundleHex disclosureJson alphasJson)
    simp only [Js.wellFormed_ofString] at hbrowser
    rw [hacts.payment] at hphone
    exact ⟨hbrowser,hphone⟩

/-- A secret the wallet has an address for makes a signer on a phone, in whatever spelling it is typed
there, and as long as that signer has an owner its calls and those of the browser come to the same. -/
theorem phone_is_browser {T : CaseTables} (hp : C.phrases.Documented T) (hhex : C.hex.Documented) (hdig : C.hex.TwoDigits)
    {secret typed network address : String} (htyped : SameWords typed secret)
    (haddress : Money.addressFromSeed C.toWalletCrates secret network = .ok address) (hfits : Fits [typed,network])
    (v : Swift.World) : ∃ pointer signer v', (Swift.Signer.fromSecret S typed network).run v = .ok pointer v' ∧
      v.signers.cells pointer = none ∧ v'.buffers.cells = v.buffers.cells ∧
      v'.signers.cells = Function.update v.signers.cells pointer (some (1,signer)) ∧
      ∀ (w : Js.World) (u : Swift.World) owners, w.memory.Sound → u.Owns pointer (owners+1) signer →
        Twin C J R X S w u secret pointer := by
  obtain ⟨hsigner,hacts⟩ := actsFor_typed (J := J) hp hhex hdig htyped haddress
  have hmade := Swift.fromSecret_delivers hS v typed network hfits
  rw [hsigner] at hmade
  obtain ⟨pointer,v',hrun,hfresh,hbuffers,hsigners⟩ := hmade
  exact ⟨pointer,⟨trim typed⟩,v',hrun,hfresh,hbuffers,hsigners,fun w u owners hsound howns =>
    twin_of_actsFor hA hX hS hacts hsound howns⟩

end

/-! ### A new wallet -/

/-- What a page reads of a new wallet. -/
def shown (R : Runtime) (make : Js.Script ℕ) : Js.Script (JsString × JsString) := do
  let ptr ← make
  let secret ← Js.getter R Prod.fst ptr
  let address ← Js.getter R Prod.snd ptr
  return (secret,address)

/-- A phone is given a secret and shows its address. -/
def restored (S : Scaffolding C.Rng) (secret network : String) : Swift.Script String := do
  let pointer ← Swift.Signer.fromSecret S secret network
  let address ← Swift.Signer.address S pointer network
  Swift.Signer.deinit S pointer
  return address

/-- A page shows this wallet, and a phone shows its address again for the secret. -/
structure Moves (R : Runtime) (S : Scaffolding C.Rng) (w : Js.World) (network : String) (make : Js.Script ℕ)
    (secret address : String) : Prop where
  shows : Ends (shown R make) w (fun got w' => got = (ofString secret,ofString address) ∧ w'.memory.Sound ∧
      w'.memory.content = w.memory.content ∧ w'.handles.externrefs.cells = w.handles.externrefs.cells)
    fun e w' => e = .trap ∧ w'.memory.Sound
  restores : ∀ typed, SameWords typed secret → Fits [typed,network] → ∀ v, ∃ v',
    (restored S typed network).run v = .ok address v' ∧ v.Same v'

theorem shown_ends (hA : R.allocator.Documented) {w : Js.World} {make : Js.Script ℕ} {texts : String × String}
    (h : Ends make w (Js.Made w texts) (Js.Trapped w)) :
    Ends (shown R make) w (fun got w' => got = (ofString texts.1,ofString texts.2) ∧ w'.memory.Sound ∧
      w'.memory.content = w.memory.content ∧ w'.handles.externrefs.cells = w.handles.externrefs.cells)
      fun e w' => e = .trap ∧ w'.memory.Sound := by
  -- a new object is not borrowed, so that only want of memory keeps it from being read
  have hreads : ∀ {v : Js.World} {ptr : ℕ}, v.memory.Sound → v.handles.objects.cells ptr = some ⟨0,texts⟩ →
      ∀ field : String × String → String,
        Ends (Js.getter R field ptr) v (Js.Text v (field texts)) fun e w' => e = .trap ∧ w'.memory.Sound := by
    intro v ptr hsound hcell field
    refine (Js.getter_ends hA hsound hcell field).mono (fun _ _ hread => hread) fun e w' hunread => ?_
    rcases hunread with hinterrupted | ⟨hfull,_⟩
    · exact ⟨hinterrupted.trap,hinterrupted.sound⟩
    · cases hfull
  refine (h.mono (fun _ _ hmade => hmade) fun _ _ htrap => ⟨htrap.1,htrap.2.1⟩).bind fun ptr w₁ hmade => ?_
  have hcell := hmade.cell
  refine (hreads hmade.sound hcell Prod.fst).bind fun secret w₂ hsecret => ?_
  obtain ⟨rfl,hsame₂⟩ := hsecret
  rw [← hsame₂.objects] at hcell
  refine (hreads hsame₂.sound hcell Prod.snd).bind fun address w₃ haddress => ?_
  obtain ⟨rfl,hsame₃⟩ := haddress
  refine .of_ok rfl ⟨rfl,hsame₃.sound,?_,?_⟩
  · rw [hsame₃.contents,hsame₂.contents,hmade.contents]
  · rw [hsame₃.externrefs,hsame₂.externrefs,hmade.externrefs]

theorem run_restored (hS : S.Documented C.toMintCrates J) {secret network address : String} {signer : Signer}
    (hsigner : fromSecret C.toWalletCrates secret network = .ok signer)
    (haddress : signer.address C.toWalletCrates network = .ok address) (hfits : Fits [secret,network]) (v : Swift.World) :
    ∃ v', (restored S secret network).run v = .ok address v' ∧ v.Same v' := by
  have hmade := Swift.fromSecret_delivers hS v secret network hfits
  rw [hsigner] at hmade
  obtain ⟨pointer,v₁,hrun,hfresh,hbuffers,hsigners⟩ := hmade
  have howns : v₁.Owns pointer 1 signer := by
    rw [Swift.World.Owns,hsigners,Function.update_self]
  have hshown : Swift.Delivers v₁ (Swift.Signer.address S pointer network) _ (Returned v₁) :=
    Swift.delivers_method hS.initialized howns (fun arg harg => hfits arg (.tail _ harg)) (hS.address signer network)
  rw [haddress] at hshown
  obtain ⟨_,v₂,hshow,rfl,hsame⟩ := hshown
  have howns₂ : v₂.Owns pointer 1 signer := by
    rw [Swift.World.Owns,hsame.signers]
    exact howns
  obtain ⟨v₃,hgone,hbuffers₃,hsigners₃⟩ := Swift.run_deinit hS.initialized howns₂
  refine ⟨v₃,?_,?_,?_⟩
  · rw [restored,run_bind_ok hrun,run_bind_ok hshow,run_bind_ok hgone]
    rfl
  · rw [hbuffers₃,hsame.buffers,hbuffers]
  · rw [hsigners₃,hsame.signers,hsigners,Function.update_idem]
    exact Function.update_eq_self_iff.mpr hfresh.symm

section
variable {T : CaseTables} (hA : R.allocator.Documented) (hX : X.Documented C J) (hS : S.Documented C.toMintCrates J)
  (hp : C.phrases.Documented T) (hC : C.toMintCrates.Documented) (hhex : C.hex.Documented) (hdig : C.hex.TwoDigits)
include hA hX hS hp hC hhex hdig

/-- Whatever wallet is made in the browser, the page shows its secret and its address, and the secret,
in whatever spelling it is typed, has a phone show that address. -/
theorem browser_to_phone {w : Js.World} (hsound : w.memory.Sound) (network : String) :
    (∀ draws wallet, NewWallet.newWallet C.toMintCrates network draws = .ok wallet →
      Moves R S w network (Js.newWallet R X (ofString network) draws) wallet.seedHex wallet.address) ∧
    ∀ draw wallet, NewWallet.newWalletMnemonic C.toMintCrates network draw = .ok wallet →
      Moves R S w network (Js.newWalletMnemonic R X (ofString network) draw) wallet.mnemonic wallet.address := by
  have hrestores : ∀ {secret address}, Money.addressFromSeed C.toWalletCrates secret network = .ok address →
      ∀ typed, SameWords typed secret → Fits [typed,network] → ∀ v, ∃ v',
        (restored S typed network).run v = .ok address v' ∧ v.Same v' := by
    intro secret address haddress typed htyped hfits
    obtain ⟨hsigner,hacts⟩ := actsFor_typed (J := J) hp hhex hdig htyped haddress
    exact run_restored hS hsigner ((hacts.address network).trans haddress) hfits
  refine ⟨fun draws wallet hwallet => ⟨?_,hrestores (NewWallet.newWallet_address hhex hdig hwallet)⟩,
    fun draw wallet hwallet => ⟨?_,hrestores ?_⟩⟩
  · have hmade := Js.objectCall_delivers hA (X.newWallet · draws) [ofString network] hsound (hX.newWallet _ draws)
    rw [Js.wellFormed_ofString] at hmade
    exact shown_ends hA (hmade.ok hwallet)
  · have hmade := Js.objectCall_delivers hA (X.newWalletMnemonic · draw) [ofString network] hsound
      (hX.newWalletMnemonic _ draw)
    rw [Js.wellFormed_ofString] at hmade
    exact shown_ends hA (hmade.ok hwallet)
  · obtain ⟨_,_,key,raw,pre,_,_,hpre,haddress,hsecret⟩ := NewWallet.newWalletMnemonic_key hp hC hwallet
    obtain ⟨_,_,hresolve,hraw⟩ := hsecret wallet.mnemonic (List.forall₂_same.mpr fun _ _ => rfl)
    rw [haddress,addressFromSeed_of_key hresolve hraw,hpre]
    rfl

end
end

open Recorded

/-- The recorded phrase as it is typed, on a phone that is asked for another network's address. -/
theorem phone_is_browser_recorded : ∃ pointer v' u,
    (Swift.Signer.fromSecret scaffolding typedPhrase "mainnet").run (Swift.World.initial Nat.succ Nat.succ) =
      .ok pointer v' ∧
      (Swift.Signer.address scaffolding pointer "testnet").run v' = .ok (addressText .testnet) u := by
  have haddress : Money.addressFromSeed glueCrates.toWalletCrates phrase "mainnet" = .ok (addressText .mainnet) := by
    decide +kernel
  obtain ⟨pointer,signer,v',hrun,_,_,hsigners,htwin⟩ := phone_is_browser (C := glueCrates) (R := .recorded)
    Allocator.bump_documented exports_documented scaffolding_documented spoken_documented hexCrate_documented
    hexCrate_twoDigits sameWords_typedPhrase haddress (by decide +kernel) (Swift.World.initial Nat.succ Nat.succ)
  have howns : v'.Owns pointer 1 signer := by
    rw [Swift.World.Owns,hsigners,Function.update_self]
  have htwins := htwin _ v' 0 (Js.World.initial_sound Nat.succ Nat.succ) howns
  have hphone := (htwins.address "testnet" (by decide +kernel)).phone
  have houtcome : Money.addressFromSeed glueCrates.toWalletCrates phrase "testnet" = .ok (addressText .testnet) := by
    decide +kernel
  rw [houtcome] at hphone
  obtain ⟨_,u,hshow,rfl,_⟩ := hphone
  exact ⟨pointer,v',u,hrun,hshow⟩

/-- A page shows the recorded phrase, and a phone takes it as it is typed. -/
theorem browser_to_phone_recorded : (∃ w', (shown .recorded (Js.newWalletMnemonic .recorded exports
      (ofString "mainnet") (.ok phraseEntropy))).run (Js.World.initial Nat.succ Nat.succ) =
        .ok (ofString phrase,ofString (addressText .mainnet)) w') ∧
    ∃ v', (restored (C := glueCrates) scaffolding typedPhrase "mainnet").run
      (Swift.World.initial Nat.succ Nat.succ) = .ok (addressText .mainnet) v' := by
  have hnew : NewWallet.newWalletMnemonic glueCrates.toMintCrates "mainnet" (.ok phraseEntropy) =
      .ok ⟨phrase,addressText .mainnet⟩ := by
    decide +kernel
  obtain ⟨_,hphrases⟩ := browser_to_phone (C := glueCrates) (R := .recorded) Allocator.bump_documented
    exports_documented scaffolding_documented spoken_documented mintCrates_documented hexCrate_documented
    hexCrate_twoDigits (Js.World.initial_sound Nat.succ Nat.succ) "mainnet"
  obtain ⟨hshows,hrestores⟩ := hphrases _ _ hnew
  obtain ⟨v',hrun,_⟩ := hrestores typedPhrase sameWords_typedPhrase (by decide +kernel)
    (Swift.World.initial Nat.succ Nat.succ)
  have hroom : ((shown .recorded (Js.newWalletMnemonic .recorded exports (ofString "mainnet")
      (.ok phraseEntropy))).run (Js.World.initial Nat.succ Nat.succ) matches .ok _ _) = true := by
    decide +kernel
  refine ⟨?_,v',hrun⟩
  cases hshow : (shown .recorded (Js.newWalletMnemonic .recorded exports (ofString "mainnet")
      (.ok phraseEntropy))).run (Js.World.initial Nat.succ Nat.succ) with
  | ok got w' =>
    obtain ⟨rfl,_⟩ := hshows.ok hshow
    exact ⟨w',rfl⟩
  | error e w' =>
    rw [hshow] at hroom
    cases hroom

end ZkasSigner.Parity
