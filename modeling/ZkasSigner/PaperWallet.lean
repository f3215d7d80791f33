import ZkasSigner.Foundation.Runs
import ZkasSigner.Foundation.Script
import ZkasSigner.NewWallet

/-! The page of the paper wallet. Its handlers write to the page as they go, and what a handler throws
is caught with the page as it stands then. -/
namespace ZkasSigner
open Foundation Foundation.Text Foundation.Outcome Foundation.Runs Foundation.Script Chat Money Mobile

/-- What the page is made with besides: the drawing of a QR code, which throws where a text is too long. -/
structure PageCrates extends MintCrates where
  createSvgTag : String → Except String String

namespace PaperWallet
open NewWallet
variable (C : PageCrates)

/-- `String.prototype.trim` counts U+FEFF as white space, and not U+0085. -/
def isJsWhitespace (c : Char) : Bool :=
  (isWhitespace c && c.toNat ≠ 0x85) || c.toNat = 0xFEFF

def jsTrim (s : String) : String :=
  String.ofList ((s.toList.dropWhile isJsWhitespace).reverse.dropWhile isJsWhitespace).reverse

/-- The signer is being loaded, could not be, or answers. -/
inductive Boot where
  | loading
  | failed
  | ready
  deriving DecidableEq

structure Page where
  boot : Boot
  current : Option Wallet
  addr : String
  fvk : String
  seed : String
  qraddr : String
  qrfvk : String
  qrseed : String
  seedboxHidden : Bool
  qrseedboxHidden : Bool
  outShown : Bool
  err : String
  deriving DecidableEq

def blank : Page where
  boot := .loading
  current := none
  addr := ""
  fvk := ""
  seed := ""
  qraddr := ""
  qrfvk := ""
  qrseed := ""
  seedboxHidden := true
  qrseedboxHidden := true
  outShown := false
  err := ""

abbrev Script := EStateM Stop Page

def drawQR (put : String → Page → Page) (text : String) : Script Unit := do
  let svg ← call (mapErr id (C.createSvgTag text))
  modify (put svg)

def render (w : Wallet) : Script Unit := do
  modify fun page => { page with current := some w }
  let viewKey ← call (fvkHex C.toWalletCrates w.seedHex)
  modify fun page => { page with addr := w.address }
  modify fun page => { page with fvk := viewKey }
  modify fun page => { page with seed := w.seedHex }
  drawQR C (fun svg page => { page with qraddr := svg }) w.address
  drawQR C (fun svg page => { page with qrfvk := svg }) viewKey
  drawQR C (fun svg page => { page with qrseed := svg }) w.seedHex
  modify fun page => { page with seedboxHidden := true }
  modify fun page => { page with qrseedboxHidden := true }
  modify fun page => { page with outShown := true }
  modify fun page => { page with err := "" }

inductive Event where
  | boot (loaded : Except String Unit)
  | gen (net : String) (draws : List (Except String (Bytes 32)))
  | derive (seedin net : String)
  | reveal
  | reveal2
  | print

/-- The wallet of a seed that is typed in. -/
def deriveWallet (seedin net : String) : Outcome Wallet := do
  let s := jsTrim seedin
  let address ← addressFromSeed C.toWalletCrates s net
  return ⟨s,address⟩

/-- An error reaches the page as its text, a panic as a trap. A call that does not end throws nothing. -/
def thrown : Stop → Option String
  | .err e => some e
  | .panic _ => some "RuntimeError: unreachable"
  | .unfinished => none

def showError (failed : String) (stop : Stop) : Script Unit :=
  match thrown stop with
  | some e => modify fun page => { page with err := failed ++ e }
  | none => throw stop

def attempt (failed : String) (wallet : Outcome Wallet) : Script Unit :=
  tryCatch (call wallet >>= render C) (showError failed)

def unmask : Script Unit := do
  modify fun page => { page with seedboxHidden := false }
  modify fun page => { page with qrseedboxHidden := false }

def handle : Event → Script Unit
  | .boot (.ok ()) => modify fun page => { page with boot := .ready }
  | .boot (.error e) => modify fun page => { page with boot := .failed, err := "Failed to load the signer: " ++ e }
  | .gen net draws => attempt C "Generate failed: " (newWallet C.toMintCrates net draws)
  | .derive seedin net => attempt C "Derive failed: " (deriveWallet C seedin net)
  | .reveal => unmask
  -- presses the first button
  | .reveal2 => unmask
  | .print => unmask

/-- The page loads the signer once. Until it is there no button works. -/
def Event.needs : Event → Boot
  | .boot _ => .loading
  | _ => .ready

def step (page : Page) (ev : Event) : Option Page :=
  if page.boot = ev.needs then
    match (handle C ev).run page with
    | .ok () next => some next
    | .error _ _ => none
  else none

/-- What a press hands to `render`. -/
def Event.wallet : Event → Option (Outcome Wallet)
  | .gen net draws => some (newWallet C.toMintCrates net draws)
  | .derive seedin net => some (deriveWallet C seedin net)
  | _ => none

/-- Presses that take the masks off. -/
def Event.Reveals : Event → Prop
  | .reveal | .reveal2 | .print => True
  | _ => False

/-- There is a wallet, and everything about it can be drawn. -/
def Completes (ev : Event) : Prop := ∃ w viewKey, ev.wallet C = some (.ok w) ∧
  fvkHex C.toWalletCrates w.seedHex = .ok viewKey ∧
  ∀ text ∈ [w.address,viewKey,w.seedHex], ∃ svg, C.createSvgTag text = .ok svg

variable {C}

/-! ### One press -/

/-- The texts of a wallet stand on the page, with whatever was drawn. -/
def Page.write (page : Page) (w : Wallet) (viewKey qraddr qrfvk : String) : Page :=
  { page with current := some w, addr := w.address, fvk := viewKey, seed := w.seedHex, qraddr := qraddr, qrfvk := qrfvk }

def Page.complete (page : Page) (w : Wallet) (viewKey qraddr qrfvk qrseed : String) : Page :=
  { page.write w viewKey qraddr qrfvk with
    qrseed := qrseed, seedboxHidden := true, qrseedboxHidden := true, outShown := true, err := "" }

/-- How far `render` comes. -/
inductive Rendered (C : PageCrates) (w : Wallet) (page : Page) : EStateM.Result Stop Page Unit → Prop
  | noViewKey (stop) (hkey : fvkHex C.toWalletCrates w.seedHex = .error stop) :
      Rendered C w page (.error stop { page with current := some w })
  | notDrawn (viewKey qraddr qrfvk e) (hkey : fvkHex C.toWalletCrates w.seedHex = .ok viewKey)
      (hsvg : ∃ text ∈ [w.address,viewKey,w.seedHex], C.createSvgTag text = .error e) :
      Rendered C w page (.error (.err e) (page.write w viewKey qraddr qrfvk))
  | done (viewKey qraddr qrfvk qrseed) (hkey : fvkHex C.toWalletCrates w.seedHex = .ok viewKey)
      (haddr : C.createSvgTag w.address = .ok qraddr) (hfvk : C.createSvgTag viewKey = .ok qrfvk)
      (hseed : C.createSvgTag w.seedHex = .ok qrseed) :
      Rendered C w page (.ok () (page.complete w viewKey qraddr qrfvk qrseed))

@[simp] theorem run_modify_bind {α : Type} (f : Page → Page) (rest : Unit → Script α) (page : Page) :
    (modify f >>= rest).run page = (rest ()).run (f page) := rfl

theorem run_drawQR_bind {α : Type} (put : String → Page → Page) (text : String) (rest : Unit → Script α) (page : Page) :
    (drawQR C put text >>= rest).run page = match C.createSvgTag text with
      | .ok svg => (rest ()).run (put svg page)
      | .error e => .error (.err e) page := by
  rw [drawQR]
  cases C.createSvgTag text <;> rfl

theorem render_rendered (w : Wallet) (page : Page) : Rendered C w page ((render C w).run page) := by
  cases hkey : fvkHex C.toWalletCrates w.seedHex with
  | error stop =>
    rw [render,run_modify_bind,hkey]
    exact .noViewKey stop hkey
  | ok viewKey =>
    rw [render,run_modify_bind,hkey]
    simp only [run_call_ok_bind,run_modify_bind,run_drawQR_bind]
    cases haddr : C.createSvgTag w.address with
    | error e => exact .notDrawn viewKey _ _ e hkey ⟨_,by simp,haddr⟩
    | ok qraddr =>
      cases hfvk : C.createSvgTag viewKey with
      | error e => exact .notDrawn viewKey _ _ e hkey ⟨_,by simp,hfvk⟩
      | ok qrfvk =>
        cases hseed : C.createSvgTag w.seedHex with
        | error e => exact .notDrawn viewKey _ _ e hkey ⟨_,by simp,hseed⟩
        | ok qrseed => exact .done viewKey qraddr qrfvk qrseed hkey haddr hfvk hseed

/-- What a press of `gen` or `derive` leaves. -/
inductive Attempted (C : PageCrates) (page : Page) : Outcome Wallet → Page → Prop
  | noWallet (stop err) (herr : err ≠ "") : Attempted C page (.error stop) { page with err := err }
  | noViewKey (w stop err) (herr : err ≠ "") (hkey : fvkHex C.toWalletCrates w.seedHex = .error stop) :
      Attempted C page (.ok w) { page with current := some w, err := err }
  | notDrawn (w viewKey qraddr qrfvk e err) (herr : err ≠ "") (hkey : fvkHex C.toWalletCrates w.seedHex = .ok viewKey)
      (hsvg : ∃ text ∈ [w.address,viewKey,w.seedHex], C.createSvgTag text = .error e) :
      Attempted C page (.ok w) { page.write w viewKey qraddr qrfvk with err := err }
  | done (w viewKey qraddr qrfvk qrseed) (hkey : fvkHex C.toWalletCrates w.seedHex = .ok viewKey)
      (haddr : C.createSvgTag w.address = .ok qraddr) (hfvk : C.createSvgTag viewKey = .ok qrfvk)
      (hseed : C.createSvgTag w.seedHex = .ok qrseed) :
      Attempted C page (.ok w) (page.complete w viewKey qraddr qrfvk qrseed)

theorem run_showError {failed : String} (hfailed : failed ≠ "") {stop : Stop} {page next : Page}
    (h : (showError failed stop).run page = .ok () next) : ∃ err, err ≠ "" ∧ next = { page with err := err } := by
  rw [showError] at h
  cases ht : thrown stop with
  | none =>
    rw [ht] at h
    cases h
  | some e =>
    rw [ht] at h
    cases h
    exact ⟨failed ++ e,fun he => hfailed (String.append_eq_empty_iff.mp he).1,rfl⟩

theorem run_attempt {failed : String} (hfailed : failed ≠ "") {wallet : Outcome Wallet} {page next : Page}
    (h : (attempt C failed wallet).run page = .ok () next) : Attempted C page wallet next := by
  rw [attempt,run_tryCatch] at h
  cases wallet with
  | error stop =>
    rw [run_call_error_bind] at h
    obtain ⟨err,herr,rfl⟩ := run_showError hfailed h
    exact .noWallet stop err herr
  | ok w =>
    rw [run_call_ok_bind] at h
    have hrendered := render_rendered (C := C) w page
    generalize (render C w).run page = result at h hrendered
    cases hrendered with
    | noViewKey stop hkey =>
      obtain ⟨err,herr,rfl⟩ := run_showError hfailed h
      exact .noViewKey w stop err herr hkey
    | notDrawn viewKey qraddr qrfvk e hkey hsvg =>
      obtain ⟨err,herr,rfl⟩ := run_showError hfailed h
      exact .notDrawn w viewKey qraddr qrfvk e err herr hkey hsvg
    | done viewKey qraddr qrfvk qrseed hkey haddr hfvk hseed =>
      cases h
      exact .done w viewKey qraddr qrfvk qrseed hkey haddr hfvk hseed

/-- One event: the signer is loaded or not, the masks come off, or a wallet is attempted. -/
theorem step_cases {page next : Page} {ev : Event} (h : step C page ev = some next) :
    (∃ loaded boot err, ev = .boot loaded ∧ (err = page.err ∨ err ≠ "") ∧ next = { page with boot := boot, err := err }) ∨
    (ev.Reveals ∧ next = { page with seedboxHidden := false, qrseedboxHidden := false }) ∨
    ∃ wallet, ev.wallet C = some wallet ∧ Attempted C page wallet next := by
  have hrun : (handle C ev).run page = .ok () next := by
    rw [step] at h
    split at h
    · split at h
      · rename_i hrun
        cases h
        exact hrun
      · cases h
    · cases h
  cases ev with
  | boot loaded =>
    cases loaded with
    | ok _ =>
      cases hrun
      exact .inl ⟨_,_,_,rfl,.inl rfl,rfl⟩
    | error e =>
      cases hrun
      exact .inl ⟨_,_,_,rfl,.inr fun he => absurd (String.append_eq_empty_iff.mp he).1 (by decide),rfl⟩
  | gen net draws => exact .inr (.inr ⟨_,rfl,run_attempt (by decide) hrun⟩)
  | derive seedin net => exact .inr (.inr ⟨_,rfl,run_attempt (by decide) hrun⟩)
  | reveal =>
    cases hrun
    exact .inr (.inl ⟨trivial,rfl⟩)
  | reveal2 =>
    cases hrun
    exact .inr (.inl ⟨trivial,rfl⟩)
  | print =>
    cases hrun
    exact .inr (.inl ⟨trivial,rfl⟩)

/-- A wallet whose seed is too long to be drawn. -/
theorem step_derive_undrawn (page : Page) {seedin net viewKey qraddr qrfvk e : String} {w : Wallet}
    (hboot : page.boot = .ready) (hwallet : deriveWallet C seedin net = .ok w)
    (hkey : fvkHex C.toWalletCrates w.seedHex = .ok viewKey) (haddr : C.createSvgTag w.address = .ok qraddr)
    (hfvk : C.createSvgTag viewKey = .ok qrfvk) (hseed : C.createSvgTag w.seedHex = .error e) :
    step C page (.derive seedin net) =
      some { page.write w viewKey qraddr qrfvk with err := "Derive failed: " ++ e } := by
  have hneeds : page.boot = (Event.derive seedin net).needs := hboot
  rw [step,if_pos hneeds,handle,attempt,run_tryCatch,hwallet,run_call_ok_bind,render,run_modify_bind,hkey]
  simp only [run_call_ok_bind,run_modify_bind,run_drawQR_bind,haddr,hfvk,hseed]
  rfl

/-! ### The masks -/

theorem Attempted.hidden {page next : Page} {ev : Event} {wallet : Outcome Wallet} (hev : ev.wallet C = some wallet)
    (h : Attempted C page wallet next) :
    (Completes C ev → next.seedboxHidden = true) ∧
      (¬ Completes C ev → next.seedboxHidden = page.seedboxHidden) := by
  cases h with
  | noWallet stop err _ =>
    refine ⟨?_,fun _ => rfl⟩
    rintro ⟨w,viewKey,hw,_⟩
    cases hev.symm.trans hw
  | noViewKey w stop err _ hkey =>
    refine ⟨?_,fun _ => rfl⟩
    rintro ⟨w',viewKey,hw,hkey',_⟩
    cases hev.symm.trans hw
    cases hkey.symm.trans hkey'
  | notDrawn w viewKey qraddr qrfvk e err _ hkey hsvg =>
    refine ⟨?_,fun _ => rfl⟩
    rintro ⟨w',viewKey',hw,hkey',hdrawn⟩
    cases hev.symm.trans hw
    cases hkey.symm.trans hkey'
    obtain ⟨text,htext,he⟩ := hsvg
    obtain ⟨svg,hsvg⟩ := hdrawn text htext
    cases he.symm.trans hsvg
  | done w viewKey qraddr qrfvk qrseed hkey haddr hfvk hseed =>
    refine ⟨fun _ => rfl,fun hnot => absurd ⟨w,viewKey,hev,hkey,?_⟩ hnot⟩
    simp only [List.mem_cons,List.not_mem_nil,or_false]
    rintro text (rfl | rfl | rfl)
    · exact ⟨_,haddr⟩
    · exact ⟨_,hfvk⟩
    · exact ⟨_,hseed⟩

theorem Event.Reveals.wallet {ev : Event} (h : ev.Reveals) : ev.wallet C = none := by
  cases ev with
  | boot loaded => cases h
  | gen net draws => cases h
  | derive seedin net => cases h
  | reveal => rfl
  | reveal2 => rfl
  | print => rfl

theorem step_attempted {page next : Page} {ev : Event} {wallet : Outcome Wallet} (hev : ev.wallet C = some wallet)
    (h : step C page ev = some next) : Attempted C page wallet next := by
  rcases step_cases h with ⟨loaded,_,_,rfl,_⟩ | ⟨hreveals,_⟩ | ⟨wallet',hev',hattempt⟩
  · cases hev
  · cases hreveals.wallet.symm.trans hev
  · rwa [← Option.some.inj (hev'.symm.trans hev)]

/-- What cannot be drawn leaves the new texts under the masks as they were. -/
theorem Attempted.undrawn {page next : Page} {w : Wallet} (h : Attempted C page (.ok w) next) {viewKey text e : String}
    (hkey : fvkHex C.toWalletCrates w.seedHex = .ok viewKey) (htext : text ∈ [w.address,viewKey,w.seedHex])
    (hsvg : C.createSvgTag text = .error e) : next.addr = w.address ∧ next.fvk = viewKey ∧ next.seed = w.seedHex ∧
      next.seedboxHidden = page.seedboxHidden ∧ next.qrseedboxHidden = page.qrseedboxHidden := by
  cases h with
  | noViewKey _ stop err _ hfailed => cases hkey.symm.trans hfailed
  | notDrawn _ viewKey' qraddr qrfvk e' err _ hkey' _ =>
    cases hkey.symm.trans hkey'
    exact ⟨rfl,rfl,rfl,rfl,rfl⟩
  | done _ viewKey' qraddr qrfvk qrseed hkey' haddr hfvk hseed =>
    cases hkey.symm.trans hkey'
    simp only [List.mem_cons,List.not_mem_nil,or_false] at htext
    rcases htext with rfl | rfl | rfl
    · cases hsvg.symm.trans haddr
    · cases hsvg.symm.trans hfvk
    · cases hsvg.symm.trans hseed

/-- Without a viewing key the old texts stay, under the masks as they were. -/
theorem Attempted.keyless {page next : Page} {w : Wallet} (h : Attempted C page (.ok w) next) {stop : Stop}
    (hkey : fvkHex C.toWalletCrates w.seedHex = .error stop) : next.addr = page.addr ∧ next.fvk = page.fvk ∧
      next.seed = page.seed ∧ next.seedboxHidden = page.seedboxHidden ∧ next.qrseedboxHidden = page.qrseedboxHidden := by
  cases h with
  | noViewKey => exact ⟨rfl,rfl,rfl,rfl,rfl⟩
  | notDrawn _ viewKey qraddr qrfvk e err _ hkey' _ => cases hkey.symm.trans hkey'
  | done _ viewKey qraddr qrfvk qrseed hkey' => cases hkey.symm.trans hkey'

theorem seedbox_iff_since {events : List Event} {page : Page} (h : run (step C) events blank = some page) :
    page.seedboxHidden = false ↔ ∃ front ev back, events = front ++ ev::back ∧ ev.Reveals ∧
      ∀ later ∈ back, ¬ Completes C later := by
  refine flag_iff_since (P := fun page => page.seedboxHidden = false) ?_ ?_ ?_ (by decide) h
  · intro page ev next hreveals hstep
    rcases step_cases hstep with ⟨_,_,_,rfl,_⟩ | ⟨_,rfl⟩ | ⟨wallet,hev,_⟩
    · cases hreveals
    · rfl
    · cases hreveals.wallet.symm.trans hev
  · intro page ev next hcompletes hstep
    rcases step_cases hstep with ⟨_,_,_,rfl,_⟩ | ⟨hreveals,_⟩ | ⟨wallet,hev,hattempt⟩
    · obtain ⟨w,viewKey,hw,_⟩ := hcompletes
      cases hw
    · obtain ⟨w,viewKey,hw,_⟩ := hcompletes
      cases hreveals.wallet.symm.trans hw
    · simp [(hattempt.hidden hev).1 hcompletes]
  · intro page ev next hreveals hcompletes hstep
    rcases step_cases hstep with ⟨_,_,_,_,_,rfl⟩ | ⟨hev,_⟩ | ⟨wallet,hev,hattempt⟩
    · rfl
    · exact absurd hev hreveals
    · rw [(hattempt.hidden hev).2 hcompletes]

/-- The page is blank still, or its texts are those of one wallet. So are its QR codes, unless the page
says that something failed. -/
structure Page.OneWallet (C : PageCrates) (page : Page) : Prop where
  masks : page.seedboxHidden = page.qrseedboxHidden
  texts : (page.outShown = false ∧ page.addr = "" ∧ page.fvk = "" ∧ page.seed = "") ∨
    ∃ net, addressFromSeed C.toWalletCrates page.seed net = .ok page.addr ∧
      fvkHex C.toWalletCrates page.seed = .ok page.fvk
  drawn : page.outShown = true → page.err = "" → C.createSvgTag page.addr = .ok page.qraddr ∧
    C.createSvgTag page.fvk = .ok page.qrfvk ∧ C.createSvgTag page.seed = .ok page.qrseed

section
variable (hhex : C.hex.Documented) (hdig : C.hex.TwoDigits)
include hhex hdig

theorem Event.wallet_address {ev : Event} {w : Wallet} (h : ev.wallet C = some (.ok w)) :
    ∃ net, addressFromSeed C.toWalletCrates w.seedHex net = .ok w.address := by
  cases ev with
  | gen net draws => exact ⟨net,newWallet_address hhex hdig (Option.some.inj h)⟩
  | derive seedin net =>
    have hw : deriveWallet C seedin net = .ok w := Option.some.inj h
    simp only [deriveWallet,bind_eq_ok] at hw
    obtain ⟨address,haddress,hw⟩ := hw
    cases hw
    exact ⟨net,haddress⟩
  | boot loaded => cases h
  | reveal => cases h
  | reveal2 => cases h
  | print => cases h

theorem Page.OneWallet.step {page next : Page} {ev : Event} (hpage : page.OneWallet C)
    (h : step C page ev = some next) : next.OneWallet C := by
  rcases step_cases h with ⟨_,_,err,_,herr,rfl⟩ | ⟨_,rfl⟩ | ⟨wallet,hev,hattempt⟩
  · refine ⟨hpage.masks,hpage.texts,fun hshown hnone => ?_⟩
    rcases herr with rfl | herr
    · exact hpage.drawn hshown hnone
    · exact absurd hnone herr
  · exact ⟨rfl,hpage.texts,hpage.drawn⟩
  · cases hattempt with
    | noWallet stop err herr => exact ⟨hpage.masks,hpage.texts,fun _ hnone => absurd hnone herr⟩
    | noViewKey w stop err herr _ => exact ⟨hpage.masks,hpage.texts,fun _ hnone => absurd hnone herr⟩
    | notDrawn w viewKey qraddr qrfvk e err herr hkey _ =>
      obtain ⟨net,haddress⟩ := Event.wallet_address hhex hdig hev
      exact ⟨hpage.masks,.inr ⟨net,haddress,hkey⟩,fun _ hnone => absurd hnone herr⟩
    | done w viewKey qraddr qrfvk qrseed hkey haddr hfvk hseed =>
      obtain ⟨net,haddress⟩ := Event.wallet_address hhex hdig hev
      exact ⟨rfl,.inr ⟨net,haddress,hkey⟩,fun _ _ => ⟨haddr,hfvk,hseed⟩⟩

/-- Whatever was pressed, and whatever failed on the way: the seed on the page restores the wallet whose
address and view key stand beside it, and unless the page says that something failed, the QR codes
are drawings of these very texts. -/
theorem page_restores {J : PaymentJson} {T : CaseTables} (hp : C.phrases.Documented T) {events : List Event}
    {page : Page} (h : run (step C) events blank = some page) :
    page.seedboxHidden = page.qrseedboxHidden ∧
    ((page.outShown = false ∧ page.addr = "" ∧ page.fvk = "" ∧ page.seed = "") ∨
      ∃ net pre key raw, prefixFrom net = .ok pre ∧ page.addr = addressString C.toWalletCrates pre raw ∧
        Restores C.toMintCrates J page.seed key raw ∧ fvkHex C.toWalletCrates page.seed = .ok page.fvk) ∧
    (page.outShown = true → page.err = "" → C.createSvgTag page.addr = .ok page.qraddr ∧
      C.createSvgTag page.fvk = .ok page.qrfvk ∧ C.createSvgTag page.seed = .ok page.qrseed) := by
  have hblank : blank.OneWallet C := ⟨rfl,.inl ⟨rfl,rfl,rfl,rfl⟩,nofun⟩
  have hpage : page.OneWallet C := run_invariant (fun _ _ _ => Page.OneWallet.step hhex hdig) hblank h
  refine ⟨hpage.masks,hpage.texts.imp_right ?_,hpage.drawn⟩
  rintro ⟨net,haddress,hkey⟩
  obtain ⟨pre,key,raw,hpre,hresolve,hraw,haddr⟩ := addressFromSeed_eq_ok.mp haddress
  exact ⟨net,pre,key,raw,hpre,haddr,restores_of_key hp hhex hdig hresolve hraw,hkey⟩

end

end PaperWallet

namespace Recorded

/-- The largest code of medium correction holds 2331 bytes. A drawing is kept as its text. -/
def pageCrates : PageCrates where
  toMintCrates := mintCrates
  createSvgTag text :=
    if text.length ≤ 2331 then .ok text
    else .error ("code length overflow. (" ++ toString (8*text.length+20) ++ ">18672)")

theorem createSvgTag_long {text : String} (h : 2331 < text.length) : ∃ e, pageCrates.createSvgTag text = .error e :=
  ⟨_,if_neg (by omega)⟩

/-- Text with a gap inside. -/
def spaced (first last : Char) (front : List Char) (n : ℕ) (back : List Char) : List Char :=
  first::(front ++ (List.replicate (n+1) ' ' ++ back) ++ [last])

theorem words_spaced (first last : Char) (front : List Char) (n : ℕ) (back : List Char) :
    Words.words isWhitespace (spaced first last front n back) =
      Words.words isWhitespace (first::front) ++ Words.words isWhitespace (back ++ [last]) := by
  have hspace : isWhitespace ' ' = true := by decide
  rw [← Words.words_append_replicate hspace n]
  simp [spaced]

theorem jsTrim_spaced {first last : Char} (hfirst : PaperWallet.isJsWhitespace first = false)
    (hlast : PaperWallet.isJsWhitespace last = false) (front : List Char) (n : ℕ) (back : List Char) :
    PaperWallet.jsTrim (String.ofList (spaced first last front n back)) = String.ofList (spaced first last front n back) := by
  rw [PaperWallet.jsTrim,String.toList_ofList,spaced,List.dropWhile_cons_of_neg (by simp [hfirst]),← List.cons_append,
    List.reverse_concat,List.dropWhile_cons_of_neg (by simp [hlast]),List.reverse_cons,List.reverse_reverse]

/-- The recorded phrase with a gap of this width and one more. -/
def spacedPhrase (n : ℕ) : String := String.ofList (spaced 'l' 'n' "eader".toList n
  "monkey parrot ring guide accident before fence cannon height naive bea".toList)

theorem splitWhitespace_spacedPhrase (n : ℕ) : splitWhitespace (spacedPhrase n) = splitWhitespace phrase := by
  change (Words.words isWhitespace (spacedPhrase n).toList).map String.ofList = _
  rw [spacedPhrase,String.toList_ofList,words_spaced]
  decide +kernel

theorem lt_length_spacedPhrase (n : ℕ) : n < (spacedPhrase n).length := by
  rw [spacedPhrase,String.length_ofList]
  simp only [spaced,List.length_append,List.length_replicate,List.length_cons]
  omega

theorem jsTrim_spacedPhrase (n : ℕ) : PaperWallet.jsTrim (spacedPhrase n) = spacedPhrase n :=
  jsTrim_spaced (by decide) (by decide) _ n _

end Recorded

namespace PaperWallet
open Recorded

/-- A phrase can be too long to be drawn. -/
theorem exists_undrawn : ∃ typed e, deriveWallet pageCrates typed "mainnet" = .ok ⟨typed,addressText .mainnet⟩ ∧
    fvkHex pageCrates.toWalletCrates typed = .ok (hexCrate.encode signedMessage.fvk.val) ∧
    pageCrates.createSvgTag typed = .error e := by
  obtain ⟨e,hlong⟩ := createSvgTag_long ((by decide : 2331 < 2400).trans (lt_length_spacedPhrase 2400))
  have hresolve : resolveSecret pageCrates.toMoneyCrates (spacedPhrase 2400) = .ok phraseKey := by
    have hsame : SameWords (spacedPhrase 2400) phrase := by
      rw [SameWords,splitWhitespace_spacedPhrase]
      exact List.forall₂_same.mpr fun _ _ => Eq.refl _
    have hcongr := OneSecret.resolveSecret_congr (C := signerCrates) spoken_documented hexCrate_documented
      hexCrate_twoDigits hsame
    exact hcongr.trans (by decide +kernel)
  have hraw : pageCrates.addressBytesFromSeed phraseKey = some phraseRecipient := by
    decide +kernel
  refine ⟨spacedPhrase 2400,e,?_,?_,hlong⟩
  · have haddress : addressFromSeed pageCrates.toWalletCrates (spacedPhrase 2400) "mainnet" = .ok (addressText .mainnet) :=
      (addressFromSeed_of_key hresolve hraw "mainnet").trans (by decide +kernel)
    simp only [deriveWallet,jsTrim_spacedPhrase,haddress,ok_bind]
    rfl
  · simp only [fvkHex,parseSeed,hresolve,ok_bind]
    decide +kernel

theorem page_restores_printed : ∃ page, run (step pageCrates)
    [.boot (.ok ()),.gen "mainnet" [.ok phraseKey],.print] blank = some page ∧ page.addr = addressText .mainnet ∧
      page.qraddr = addressText .mainnet ∧ ∃ signer, fromSecret walletCrates page.seed "testnet" = .ok signer := by
  have hpage : (run (step pageCrates) [.boot (.ok ()),.gen "mainnet" [.ok phraseKey],.print] blank).map
      (fun page => (page.addr,page.outShown,page.err)) = some (addressText .mainnet,true,"") := by
    decide +kernel
  obtain ⟨page,hrun,hpage⟩ := Option.map_eq_some_iff.mp hpage
  obtain ⟨haddr,hshown,herr⟩ : page.addr = addressText .mainnet ∧ page.outShown = true ∧ page.err = "" := by
    simpa using hpage
  obtain ⟨_,htexts,hdrawn⟩ := page_restores (J := Prepared.json) hexCrate_documented hexCrate_twoDigits
    spoken_documented hrun
  refine ⟨page,hrun,haddr,?_,?_⟩
  · obtain ⟨hqr,_⟩ := hdrawn hshown herr
    rw [haddr] at hqr
    have hown : pageCrates.createSvgTag (addressText .mainnet) = .ok (addressText .mainnet) := by
      decide +kernel
    exact Except.ok.inj (hqr.symm.trans hown)
  · rcases htexts with ⟨hout,_⟩ | ⟨_,_,_,_,_,_,hrestores,_⟩
    · cases hshown.symm.trans hout
    · obtain ⟨signer,hsigner,_⟩ := hrestores.phone "testnet" .testnet rfl
      exact ⟨signer,hsigner⟩

end PaperWallet
end ZkasSigner
