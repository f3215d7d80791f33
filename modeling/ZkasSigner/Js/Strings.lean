import ZkasSigner.Foundation.Heap
import ZkasSigner.Foundation.Linear
import ZkasSigner.Foundation.Script
import ZkasSigner.Foundation.Utf16

/-! Texts between JavaScript and the library. A text goes in as its UTF-8 bytes, in a block of the
library's memory, and comes out of one. -/
namespace ZkasSigner.Js
open Foundation Foundation.Text Foundation.Script

abbrev JsString := List UInt16

inductive Thrown where
  /-- The library's code stops. -/
  | trap
  /-- The library goes by what is not there, and anything can happen. -/
  | undefined
  | rangeError
  | typeError
  /-- `__wbindgen_throw` makes an `Error`. -/
  | error (message : String)
  | value (v : JsString)

/-- An object of the library's: how often it is borrowed, and its two texts. -/
structure Object where
  borrow : UInt32
  texts : String × String

/-- JavaScript's values in the library's table, and the objects it gave out. -/
structure Handles where
  externrefs : Heap JsString
  objects : Heap Object

/-- The library's memory and what it hands out by number, and the glue's own variables. A view is known
by the generation of the memory it was opened on. -/
structure World where
  memory : Linear
  handles : Handles
  cachedUint8ArrayMemory0 : Option ℕ
  WASM_VECTOR_LEN : ℕ

abbrev Script := EStateM Thrown World

/-! ### Typed arrays -/

/-- `byteLength`: a view on a memory that has grown since is detached. -/
def World.byteLength (w : World) (view : ℕ) : ℕ := if view = w.memory.generation then w.memory.size else 0

def openView : Script ℕ := fun w =>
  .ok w.memory.generation { w with cachedUint8ArrayMemory0 := some w.memory.generation }

def getUint8ArrayMemory0 : Script ℕ := fun w =>
  match w.cachedUint8ArrayMemory0 with
  | none => openView w
  | some view => if w.byteLength view = 0 then openView w else .ok view w

/-- `view[i] = b`, which comes to nothing beyond the end. -/
def setAt (view i : ℕ) (b : UInt8) : Script Unit := fun w =>
  .ok () (if i < w.byteLength view then { w with memory := w.memory.store i b } else w)

structure Subarray where
  view : ℕ
  start : ℕ
  length : ℕ

/-- `view.subarray(start, stop)`. -/
def subarray (view start stop : ℕ) : Script Subarray := fun w =>
  let length := w.byteLength view
  .ok ⟨view,min start length,min stop length-min start length⟩ w

def writeTo (target : Subarray) (bytes : List UInt8) : Script Unit := fun w =>
  .ok () { w with memory := w.memory.write target.start bytes }

/-- `target.set(bytes)`. -/
def setBytes (target : Subarray) (bytes : List UInt8) : Script Unit :=
  if target.length < bytes.length then throw .rangeError else writeTo target bytes

/-- The bytes of the characters in front, as many as fit. -/
def fitting : ℕ → List Char → List UInt8
  | _, [] => []
  | room, c::cs => if c.utf8Size ≤ room then String.utf8EncodeChar c ++ fitting (room-c.utf8Size) cs else []

/-- `encodeInto`, with the count of bytes it has written. -/
def encodeInto (text : JsString) (target : Subarray) : Script ℕ := do
  let bytes := fitting target.length (Utf16.chars text)
  writeTo target bytes
  return bytes.length

/-! ### The glue -/

/-- What the glue runs on. An older runtime has no `encodeInto`, or no `FinalizationRegistry`. -/
structure Runtime where
  allocator : Allocator
  encodesInto : Bool
  finalizes : Bool

section
variable (R : Runtime)

def malloc (size : ℕ) : Script ℕ := fun w =>
  match R.allocator.malloc w.memory size with
  | some (ptr,memory) => .ok ptr { w with memory := memory }
  | none => .error .trap w

def realloc (ptr oldSize newSize : ℕ) : Script ℕ := fun w =>
  match R.allocator.realloc w.memory ptr oldSize newSize with
  | some (ptr,memory) => .ok ptr { w with memory := memory }
  | none => .error .trap w

def free (ptr size : ℕ) : Script Unit := fun w =>
  .ok () { w with memory := R.allocator.free w.memory ptr size }

def setVectorLen (len : ℕ) : Script Unit := fun w => .ok () { w with WASM_VECTOR_LEN := len }

def encodeString (arg : JsString) (view : Subarray) : Script ℕ :=
  if R.encodesInto then encodeInto arg view
  else do
    let buf := Utf16.encode arg
    setBytes view buf
    return buf.length

/-- The units that are bytes are copied as they are, up to the first that is not. -/
def copyAscii (mem ptr : ℕ) : JsString → ℕ → Script ℕ
  | [], offset => pure offset
  | code::rest, offset =>
    if code > 0x7F then pure offset
    else do
      setAt mem (ptr+offset) code.toUInt8
      copyAscii mem ptr rest (offset+1)

/-- `passStringToWasm0` without a `realloc`. -/
def passWhole (arg : JsString) : Script ℕ := do
  let buf := Utf16.encode arg
  let ptr ← malloc R buf.length
  let mem ← getUint8ArrayMemory0
  setBytes (← subarray mem ptr (ptr+buf.length)) buf
  setVectorLen buf.length
  return ptr

/-- The rest is encoded by the runtime, with room for three bytes a unit. The block is cut to its size then. -/
def encodeRest (arg : JsString) (ptr offset : ℕ) : Script ℕ := do
  let len := arg.length
  let arg := arg.drop offset
  let newLen := offset+arg.length*3
  let ptr ← realloc R ptr len newLen
  let mem ← getUint8ArrayMemory0
  let view ← subarray mem (ptr+offset) (ptr+newLen)
  let written ← encodeString R arg view
  let offset := offset+written
  let ptr ← realloc R ptr newLen offset
  setVectorLen offset
  return ptr

/-- `passStringToWasm0`. -/
def passStringToWasm0 (arg : JsString) : Script ℕ := do
  let len := arg.length
  let ptr ← malloc R len
  let mem ← getUint8ArrayMemory0
  let offset ← copyAscii mem ptr arg 0
  if offset ≠ len then encodeRest R arg ptr offset
  else do
    setVectorLen offset
    return ptr

/-- The decoder is a fatal one. -/
def getStringFromWasm0 (ptr len : ℕ) : Script JsString := do
  let mem ← getUint8ArrayMemory0
  let view ← subarray mem ptr (ptr+len)
  let w ← get
  match decodeUtf8 (w.memory.slice view.start view.length) with
  | some s => return Utf16.ofString s
  | none => throw .typeError

end

/-! ### Bytes -/

/-- The text that a JavaScript string arrives as. -/
def wellFormed (arg : JsString) : String := String.ofList (Utf16.chars arg)

abbrev Contents := ℕ → Option (List UInt8)

/-- The blocks hold this, and nothing else was handed out. -/
structure World.Into (w : World) (contents : Contents) (w' : World) : Prop where
  sound : w'.memory.Sound
  contents : w'.memory.content = contents
  handles : w'.handles = w.handles

/-- A text stands in a new block of its own size. No text needs none. -/
def Placed (base : Contents) (ptr : ℕ) (bytes : List UInt8) (contents : Contents) : Prop :=
  if bytes = [] then contents = base
  else base ptr = none ∧ contents = Function.update base ptr (some bytes)

/-- The library has stopped. What it holds and has given out is as it was. -/
def Trapped (w : World) (e : Thrown) (w' : World) : Prop := e = .trap ∧ w'.memory.Sound ∧ w'.handles = w.handles

theorem trapped_congr {w w' : World} (h : w'.handles = w.handles) : Trapped w' = Trapped w := by
  funext e w''
  rw [Trapped,Trapped,h]

theorem Placed.cell {base c : Contents} {p : ℕ} {l : List UInt8} (h : Placed base p l c) (hl : l ≠ []) :
    base p = none ∧ c = Function.update base p (some l) := by
  rwa [Placed,if_neg hl] at h

theorem Placed.content {base c : Contents} {p : ℕ} {l : List UInt8} (h : Placed base p l c) (hl : l ≠ []) :
    c p = some l := by
  rw [(h.cell hl).2,Function.update_self]

theorem Placed.set {base c : Contents} {p : ℕ} {l l' : List UInt8} (h : Placed base p l c) (hl : l ≠ []) (hl' : l' ≠ []) :
    Placed base p l' (Function.update c p (some l')) := by
  obtain ⟨hbase,rfl⟩ := h.cell hl
  rw [Placed,if_neg hl',Function.update_idem]
  exact ⟨hbase,rfl⟩

/-- A block that is moved leaves nothing where it was. -/
theorem Placed.move {base c : Contents} {p q : ℕ} {l l' : List UInt8} (h : Placed base p l c) (hl : l ≠ []) (hl' : l' ≠ [])
    (hq : q = p ∨ c q = none) : Placed base q l' (Function.update (Function.update c p none) q (some l')) := by
  obtain ⟨hbase,rfl⟩ := h.cell hl
  have hgone : Function.update (Function.update base p (some l)) p none = base := by
    rw [Function.update_idem]
    exact Function.update_eq_self_iff.mpr hbase.symm
  rw [Placed,if_neg hl',hgone]
  refine ⟨?_,rfl⟩
  rcases eq_or_ne q p with rfl | hne
  · exact hbase
  · rw [Function.update_of_ne hne] at hq
    exact hq.resolve_left hne

theorem fitting_eq {room : ℕ} {cs : List Char} (h : (cs.flatMap String.utf8EncodeChar).length ≤ room) :
    fitting room cs = cs.flatMap String.utf8EncodeChar := by
  induction cs generalizing room with
  | nil => rfl
  | cons c cs ih =>
    rw [List.flatMap_cons,List.length_append,String.length_utf8EncodeChar] at h
    rw [fitting,if_pos (by omega),ih (by omega),List.flatMap_cons]

theorem encode_wellFormed (arg : JsString) : Utf16.encode arg = asBytes (wellFormed arg) := Utf16.encode_eq arg

theorem wellFormed_ofString (s : String) : wellFormed (Utf16.ofString s) = s := by
  rw [wellFormed,Utf16.chars_ofString,String.ofList_toList]

theorem encode_ne_nil {text : JsString} (h : text ≠ []) : Utf16.encode text ≠ [] := by
  cases text with
  | nil => exact absurd rfl h
  | cons u rest =>
    cases rest with
    | nil =>
      rw [Utf16.encode,Utf16.chars,List.flatMap_cons]
      exact List.append_ne_nil_of_left_ne_nil String.utf8EncodeChar_ne_nil _
    | cons v rest =>
      rw [Utf16.encode,Utf16.chars]
      split <;> exact List.append_ne_nil_of_left_ne_nil String.utf8EncodeChar_ne_nil _

theorem World.Into.refl {w : World} (h : w.memory.Sound) : w.Into w.memory.content w := ⟨h,rfl,rfl⟩

theorem World.Into.trans {w w' w'' : World} {c c' : Contents} (h : w.Into c w') (h' : w'.Into c' w'') : w.Into c' w'' :=
  ⟨h'.sound,h'.contents,h'.handles.trans h.handles⟩

theorem World.Into.stay {w : World} {ptr : ℕ} {l : List UInt8} (h : w.memory.Sound) (hp : w.memory.content ptr = some l) :
    w.Into (Function.update w.memory.content ptr (some l)) w :=
  ⟨h,(Function.update_eq_self_iff.mpr hp.symm).symm,rfl⟩

/-- The view is one on the memory as it is. -/
theorem run_getUint8ArrayMemory0 (w : World) : ∃ w', getUint8ArrayMemory0.run w = .ok w.memory.generation w' ∧
    w'.memory = w.memory ∧ w'.handles = w.handles := by
  obtain ⟨memory,handles,cached,len⟩ := w
  cases cached with
  | none => exact ⟨_,rfl,rfl,rfl⟩
  | some view =>
    by_cases hview : (World.mk memory handles (some view) len).byteLength view = 0
    · exact ⟨_,if_pos hview,rfl,rfl⟩
    · refine ⟨_,(if_neg hview).trans ?_,rfl,rfl⟩
      rw [World.byteLength] at hview
      have hcurrent : view = memory.generation := by
        by_contra hne
        exact hview (if_neg hne)
      rw [hcurrent]

section
variable {R : Runtime} {w : World} {ptr : ℕ}

theorem block_inside (h : w.memory.Sound) {l : List UInt8} (hp : w.memory.content ptr = some l) :
    ptr+l.length ≤ w.byteLength w.memory.generation := by
  rw [World.byteLength,if_pos rfl]
  exact (h.inside (Linear.content_eq_some.mp hp).1).2

theorem run_subarray (h : w.memory.Sound) {l : List UInt8} (hp : w.memory.content ptr = some l) (start stop : ℕ)
    (hstart : start ≤ stop) (hstop : stop ≤ l.length) :
    (subarray w.memory.generation (ptr+start) (ptr+stop)).run w = .ok ⟨w.memory.generation,ptr+start,stop-start⟩ w := by
  have hinside := block_inside h hp
  change EStateM.Result.ok _ _ = _
  congr 2
  · omega
  · omega

/-- Bytes that fit a part of a block replace this part. -/
theorem run_writeTo (h : w.memory.Sound) (view length : ℕ) {front old rest bytes : List UInt8}
    (hlength : old.length = bytes.length) (hp : w.memory.content ptr = some (front ++ (old ++ rest))) : ∃ w',
      (writeTo ⟨view,ptr+front.length,length⟩ bytes).run w = .ok () w' ∧
      w.Into (Function.update w.memory.content ptr (some (front ++ (bytes ++ rest)))) w' :=
  ⟨_,rfl,h.write _ _,h.content_write hlength hp,rfl⟩

theorem run_copyAscii {text : JsString} {front old : List UInt8} (h : w.memory.Sound)
    (hp : w.memory.content ptr = some (front ++ old)) (hlength : old.length = text.length) : ∃ k done w',
      (copyAscii w.memory.generation ptr text front.length).run w = .ok (front.length+k) w' ∧
      k ≤ text.length ∧ done.length = k ∧ Utf16.encode text = done ++ Utf16.encode (text.drop k) ∧
      w.Into (Function.update w.memory.content ptr (some (front ++ (done ++ old.drop k)))) w' := by
  induction text generalizing w front old with
  | nil => exact ⟨0,[],w,rfl,le_refl 0,rfl,rfl,.stay h hp⟩
  | cons code rest ih =>
    by_cases hcode : code > 0x7F
    · refine ⟨0,[],w,?_,Nat.zero_le _,rfl,rfl,.stay h hp⟩
      rw [copyAscii,if_pos hcode]
      rfl
    · obtain ⟨a,old,rfl⟩ := List.exists_cons_of_length_eq_add_one hlength
      have hinside := block_inside h hp
      rw [List.length_append,List.length_cons] at hinside
      have hascii : code.toNat ≤ 0x7F := by
        rw [gt_iff_lt,UInt16.lt_iff_toNat_lt] at hcode
        exact Nat.not_lt.mp hcode
      have hset : (setAt w.memory.generation (ptr+front.length) code.toUInt8).run w =
          .ok () { w with memory := w.memory.store (ptr+front.length) code.toUInt8 } := by
        change EStateM.Result.ok () (if _ then _ else _) = _
        rw [if_pos (by omega)]
      have hstore := h.content_store (b := code.toUInt8) hp
      have hself : (w.memory.store (ptr+front.length) code.toUInt8).content ptr = some ((front ++ [code.toUInt8]) ++ old) := by
        rw [hstore,Function.update_self]
        simp
      have hnext := h.store (ptr+front.length) code.toUInt8
      obtain ⟨k,done,w',hrun,hk,hdone,hencode,hinto⟩ := ih
        (w := { w with memory := w.memory.store (ptr+front.length) code.toUInt8 }) hnext hself (Nat.succ.inj hlength)
      refine ⟨k+1,code.toUInt8::done,w',?_,Nat.succ_le_succ hk,congrArg (·+1) hdone,?_,?_⟩
      · rw [List.length_append,List.length_singleton] at hrun
        rw [copyAscii,if_neg hcode,run_bind_ok hset,show front.length+(k+1) = front.length+1+k by omega]
        exact hrun
      · rw [Utf16.encode_ascii_cons hascii,hencode]
        rfl
      · refine ⟨hinto.sound,?_,hinto.handles⟩
        rw [hinto.contents]
        change Function.update (w.memory.store (ptr+front.length) code.toUInt8).content ptr _ = _
        rw [hstore,Function.update_idem]
        simp

/-- A text for which there is room is encoded whole, whatever the runtime has. -/
theorem run_encodeString (h : w.memory.Sound) (view : ℕ) (arg : JsString) {front old : List UInt8}
    (hp : w.memory.content ptr = some (front ++ old)) (hroom : (Utf16.encode arg).length ≤ old.length) : ∃ w',
      (encodeString R arg ⟨view,ptr+front.length,old.length⟩).run w = .ok (Utf16.encode arg).length w' ∧
      w.Into (Function.update w.memory.content ptr
        (some (front ++ (Utf16.encode arg ++ old.drop (Utf16.encode arg).length)))) w' := by
  rw [← List.take_append_drop (Utf16.encode arg).length old] at hp
  obtain ⟨w',hrun,hinto⟩ := run_writeTo h view old.length (List.length_take_of_le hroom) hp
  refine ⟨w',?_,hinto⟩
  rw [encodeString]
  split
  · rw [encodeInto,fitting_eq hroom,← Utf16.encode,run_bind_ok hrun]
    rfl
  · have hset : (setBytes ⟨view,ptr+front.length,old.length⟩ (Utf16.encode arg)).run w = .ok () w' := by
      rw [setBytes,if_neg (Nat.not_lt.mpr hroom)]
      exact hrun
    exact (run_bind_ok hset).trans rfl

/-! ### Passing a text -/

section
variable (hA : R.allocator.Documented)
include hA

theorem malloc_ends (h : w.memory.Sound) (n : ℕ) : Ends (malloc R n) w
    (fun ptr w' => ∃ l c, l.length = n ∧ Placed w.memory.content ptr l c ∧ w.Into c w') (Trapped w) := by
  cases halloc : R.allocator.malloc w.memory n with
  | none =>
    have hrun : (malloc R n).run w = .error .trap w := by
      change malloc R n w = _
      simp only [malloc,halloc]
    exact .of_error hrun ⟨rfl,h,rfl⟩
  | some placed =>
    obtain ⟨ptr,memory⟩ := placed
    have hrun : (malloc R n).run w = .ok ptr { w with memory := memory } := by
      change malloc R n w = _
      simp only [malloc,halloc]
    refine .of_ok hrun ?_
    rcases Nat.eq_zero_or_pos n with rfl | hn
    · obtain ⟨hsound,hcontent⟩ := hA.malloc_zero h halloc
      exact ⟨[],_,rfl,rfl,hsound,hcontent,rfl⟩
    · obtain ⟨hsound,hfresh,l,hlength,hcontent⟩ := hA.malloc h hn halloc
      have hl : l ≠ [] := by
        rintro rfl
        exact hn.ne hlength
      refine ⟨l,_,hlength,?_,hsound,hcontent,rfl⟩
      rw [Placed,if_neg hl]
      exact ⟨hfresh,rfl⟩

theorem realloc_ends (h : w.memory.Sound) {base : Contents} {l : List UInt8} {n : ℕ} (hl : l ≠ []) (hn : 0 < n)
    (hplaced : Placed base ptr l w.memory.content) : Ends (realloc R ptr l.length n) w
      (fun ptr' w' => ∃ l' c, l'.length = n ∧ l'.take l.length = l.take n ∧ Placed base ptr' l' c ∧ w.Into c w')
      (Trapped w) := by
  cases halloc : R.allocator.realloc w.memory ptr l.length n with
  | none =>
    have hrun : (realloc R ptr l.length n).run w = .error .trap w := by
      change realloc R ptr l.length n w = _
      simp only [realloc,halloc]
    exact .of_error hrun ⟨rfl,h,rfl⟩
  | some moved =>
    obtain ⟨ptr',memory⟩ := moved
    have hrun : (realloc R ptr l.length n).run w = .ok ptr' { w with memory := memory } := by
      change realloc R ptr l.length n w = _
      simp only [realloc,halloc]
    obtain ⟨hsound,hfresh,l',hlength,htake,hcontent⟩ := hA.realloc h (hplaced.content hl) hn halloc
    have hl' : l' ≠ [] := by
      rintro rfl
      exact hn.ne hlength
    exact .of_ok hrun ⟨l',_,hlength,htake,hplaced.move hl hl' hfresh,hsound,hcontent,rfl⟩

/-- A text has come to stand in the library's memory, in a block of its size. -/
def Passed (w : World) (text : JsString) (ptr : ℕ) (w' : World) : Prop :=
  w'.WASM_VECTOR_LEN = (Utf16.encode text).length ∧
    ∃ c, Placed w.memory.content ptr (Utf16.encode text) c ∧ w.Into c w'

theorem encodeRest_ends (h : w.memory.Sound) {base : Contents} {arg : JsString} {done old : List UInt8}
    (hdone : Utf16.encode arg = done ++ Utf16.encode (arg.drop done.length)) (hleft : done.length < arg.length)
    (hlength : (done ++ old).length = arg.length) (hplaced : Placed base ptr (done ++ old) w.memory.content) :
    Ends (encodeRest R arg ptr done.length) w (fun ptr' w' => w'.WASM_VECTOR_LEN = (Utf16.encode arg).length ∧
      ∃ c, Placed base ptr' (Utf16.encode arg) c ∧ w.Into c w') (Trapped w) := by
  have hrest := Utf16.encode_length (arg.drop done.length)
  have hsome : Utf16.encode (arg.drop done.length) ≠ [] := by
    refine encode_ne_nil ?_
    rw [ne_eq,List.drop_eq_nil_iff]
    omega
  have hunits : (arg.drop done.length).length = arg.length-done.length := List.length_drop
  have hne : done ++ old ≠ [] := by
    rw [← List.length_pos_iff]
    omega
  rw [encodeRest,← hlength]
  -- there is room now for three bytes a unit, behind what was done
  refine (realloc_ends hA h hne (by omega) hplaced).bind fun ptr₁ w₁ hmoved => ?_
  obtain ⟨l₁,c₁,hlength₁,htake₁,hplaced₁,hinto₁⟩ := hmoved
  rw [List.take_of_length_le (l := done ++ old) (by omega)] at htake₁
  have hprefix : done <+: l₁ := by
    refine (List.prefix_append done old).trans ?_
    rw [← htake₁]
    exact List.take_prefix _ _
  obtain ⟨old₁,rfl⟩ := hprefix
  rw [List.length_append] at hlength₁
  have hne₁ : done ++ old₁ ≠ [] := by
    rw [← List.length_pos_iff,List.length_append]
    omega
  obtain ⟨w₂,hview,hmemory,hhandles⟩ := run_getUint8ArrayMemory0 w₁
  refine .after hview ?_
  have hsound : w₂.memory.Sound := by
    rw [hmemory]
    exact hinto₁.sound
  have hcell : w₂.memory.content ptr₁ = some (done ++ old₁) := by
    rw [hmemory,hinto₁.contents]
    exact hplaced₁.content hne₁
  have hsub := run_subarray hsound hcell done.length (done.length+old₁.length) (Nat.le_add_right ..) (List.length_append ..).ge
  rw [Nat.add_sub_cancel_left,hmemory] at hsub
  rw [← hlength₁]
  refine .after hsub ?_
  obtain ⟨w₃,hencoded,hinto₃⟩ := run_encodeString (R := R) hsound w₁.memory.generation
    (arg.drop done.length) hcell (by omega)
  refine .after hencoded ?_
  -- the block is cut to what was written
  set bytes := Utf16.encode (arg.drop done.length)
  have hcut : Placed base ptr₁ (done ++ (bytes ++ old₁.drop bytes.length)) w₃.memory.content := by
    rw [hinto₃.contents,hmemory,hinto₁.contents]
    exact hplaced₁.set hne₁ (by simp [hsome])
  have hsize : (done ++ (bytes ++ old₁.drop bytes.length)).length = done.length+old₁.length := by
    simp only [List.length_append,List.length_drop]
    omega
  have hpos : 0 < done.length+bytes.length := by
    have := List.length_pos_iff.mpr hsome
    omega
  have hcutting := realloc_ends hA hinto₃.sound (n := done.length+bytes.length) (by simp [hsome]) hpos hcut
  have hhandles₃ : w₃.handles = w.handles := by
    rw [hinto₃.handles,hhandles,hinto₁.handles]
  rw [hsize,trapped_congr hhandles₃] at hcutting
  refine hcutting.bind fun ptr₄ w₄ hmoved => ?_
  obtain ⟨l₄,c₄,hlength₄,htake₄,hplaced₄,hinto₄⟩ := hmoved
  have hwhole : l₄ = Utf16.encode arg := by
    rw [List.take_of_length_le (by omega)] at htake₄
    rw [htake₄,hdone,← List.length_append,← List.append_assoc,List.take_left]
  rw [hwhole] at hplaced₄
  refine .of_ok (t := { w₄ with WASM_VECTOR_LEN := done.length+bytes.length }) rfl ⟨?_,c₄,hplaced₄,hinto₄.sound,hinto₄.contents,?_⟩
  · rw [hdone,List.length_append]
  · exact hinto₄.handles.trans hhandles₃

/-- A text is passed as its bytes, in a block of just their size, wherever its first unit is that is no
byte and however the memory grows meanwhile. Nothing else in memory changes, and nothing is thrown
but for want of memory. -/
theorem passStringToWasm0_ends (h : w.memory.Sound) (arg : JsString) :
    Ends (passStringToWasm0 R arg) w (Passed w arg) (Trapped w) := by
  rw [passStringToWasm0]
  refine (malloc_ends hA h arg.length).bind fun ptr w₁ hplaced => ?_
  obtain ⟨l,c,hlength,hplaced,hinto⟩ := hplaced
  obtain ⟨w₂,hview,hmemory,hhandles⟩ := run_getUint8ArrayMemory0 w₁
  refine .after hview ?_
  by_cases harg : arg = []
  · rw [harg,List.length_nil] at hlength
    rw [List.eq_nil_of_length_eq_zero hlength] at hplaced
    rw [harg]
    refine .of_ok (t := { w₂ with WASM_VECTOR_LEN := 0 }) rfl ⟨rfl,c,hplaced,?_,?_,?_⟩
    · change w₂.memory.Sound
      rw [hmemory]
      exact hinto.sound
    · change w₂.memory.content = c
      rw [hmemory]
      exact hinto.contents
    · exact hhandles.trans hinto.handles
  · have hne : l ≠ [] := by
      rw [← List.length_pos_iff,hlength]
      exact List.length_pos_iff.mpr harg
    have hsound : w₂.memory.Sound := by
      rw [hmemory]
      exact hinto.sound
    have hcell : w₂.memory.content ptr = some ([] ++ l) := by
      rw [hmemory,hinto.contents]
      exact hplaced.content hne
    obtain ⟨k,done,w₃,hcopied,hk,hdone,hencode,hinto₃⟩ := run_copyAscii hsound hcell hlength
    rw [hmemory,List.length_nil,Nat.zero_add] at hcopied
    refine .after hcopied ?_
    have hhandles₃ : w₃.handles = w.handles := by
      rw [hinto₃.handles,hhandles,hinto.handles]
    have hlength₃ : (done ++ l.drop k).length = arg.length := by
      simp only [List.length_append,List.length_drop]
      omega
    have hplaced₃ : Placed w.memory.content ptr (done ++ l.drop k) w₃.memory.content := by
      rw [hinto₃.contents,hmemory,hinto.contents]
      refine hplaced.set hne ?_
      rw [← List.length_pos_iff,hlength₃]
      exact List.length_pos_iff.mpr harg
    rw [← hdone] at hencode hlength₃ hplaced₃ hk ⊢
    by_cases hall : done.length = arg.length
    · have hbytes : done ++ l.drop done.length = Utf16.encode arg := by
        rw [hencode,hall,List.drop_length,← hlength,List.drop_length]
        rfl
      rw [if_neg (not_not.mpr hall)]
      rw [hbytes] at hplaced₃
      refine .of_ok (t := { w₃ with WASM_VECTOR_LEN := done.length }) rfl
        ⟨?_,_,hplaced₃,hinto₃.sound,rfl,hhandles₃⟩
      rw [hencode,List.length_append,hall,List.drop_length]
      rfl
    · rw [if_pos hall]
      have hrest := encodeRest_ends hA hinto₃.sound hencode (by omega) hlength₃ hplaced₃
      rw [trapped_congr hhandles₃] at hrest
      refine hrest.mono ?_ fun _ _ htrap => htrap
      rintro ptr' w₄ ⟨hlen,c,hplaced₄,hinto₄⟩
      exact ⟨hlen,c,hplaced₄,hinto₄.sound,hinto₄.contents,hinto₄.handles.trans hhandles₃⟩

/-- Without a `realloc` it comes to the same. -/
theorem passWhole_ends (h : w.memory.Sound) (arg : JsString) : Ends (passWhole R arg) w (Passed w arg) (Trapped w) := by
  rw [passWhole]
  refine (malloc_ends hA h _).bind fun ptr w₁ hplaced => ?_
  obtain ⟨l,c,hlength,hplaced,hinto⟩ := hplaced
  obtain ⟨w₂,hview,hmemory,hhandles⟩ := run_getUint8ArrayMemory0 w₁
  refine .after hview ?_
  have hsound : w₂.memory.Sound := by
    rw [hmemory]
    exact hinto.sound
  have hhandles₂ : w₂.handles = w.handles := hhandles.trans hinto.handles
  by_cases hbuf : Utf16.encode arg = []
  · rw [hbuf,List.length_nil] at hlength
    rw [List.eq_nil_of_length_eq_zero hlength] at hplaced
    rw [hbuf]
    refine .of_ok (t := { w₂ with WASM_VECTOR_LEN := 0 }) rfl ⟨congrArg List.length hbuf.symm,c,?_,hsound,?_,hhandles₂⟩
    · rw [hbuf]
      exact hplaced
    · change w₂.memory.content = c
      rw [hmemory,hinto.contents]
  · have hne : l ≠ [] := by
      rw [← List.length_pos_iff,hlength]
      exact List.length_pos_iff.mpr hbuf
    have hcell : w₂.memory.content ptr = some ([] ++ (l ++ [])) := by
      rw [hmemory,hinto.contents,List.append_nil]
      exact hplaced.content hne
    have hsub := run_subarray hsound hcell 0 l.length (Nat.zero_le _) (by simp)
    rw [hmemory,hlength,Nat.sub_zero] at hsub
    refine .after hsub ?_
    obtain ⟨w₃,hwritten,hinto₃⟩ := run_writeTo hsound w₁.memory.generation (Utf16.encode arg).length hlength hcell
    have hset : (setBytes ⟨w₁.memory.generation,ptr+0,(Utf16.encode arg).length⟩ (Utf16.encode arg)).run w₂ =
        .ok () w₃ := by
      rw [setBytes,if_neg (lt_irrefl (Utf16.encode arg).length)]
      exact hwritten
    refine .after hset ?_
    refine .of_ok (t := { w₃ with WASM_VECTOR_LEN := (Utf16.encode arg).length }) rfl
      ⟨rfl,_,?_,hinto₃.sound,rfl,hinto₃.handles.trans hhandles₂⟩
    change Placed w.memory.content ptr (Utf16.encode arg) w₃.memory.content
    rw [hinto₃.contents,hmemory,hinto.contents,List.append_nil]
    exact hplaced.set hne hbuf

end

/-- A text that stands in memory is read as it is. -/
theorem run_getStringFromWasm0 (h : w.memory.Sound) {text : String} {c : Contents} {base : Contents}
    (hplaced : Placed base ptr (asBytes text) c) (hc : w.memory.content = c) : ∃ w',
      (getStringFromWasm0 ptr (asBytes text).length).run w = .ok (Utf16.ofString text) w' ∧
      w'.memory = w.memory ∧ w'.handles = w.handles := by
  obtain ⟨w',hview,hmemory,hhandles⟩ := run_getUint8ArrayMemory0 w
  refine ⟨w',?_,hmemory,hhandles⟩
  have hdecode : decodeUtf8 (asBytes text) = some text := decodeUtf8_eq_some.mpr rfl
  have hread : ∃ view : Subarray, (subarray w.memory.generation ptr (ptr+(asBytes text).length)).run w' = .ok view w' ∧
      w'.memory.slice view.start view.length = asBytes text := by
    by_cases htext : asBytes text = []
    · refine ⟨_,rfl,?_⟩
      rw [htext,List.length_nil,Nat.add_zero,Nat.sub_self]
      rfl
    · have hcell : w'.memory.content ptr = some (asBytes text) := by
        rw [hmemory,hc]
        exact hplaced.content htext
      have hsound : w'.memory.Sound := by
        rw [hmemory]
        exact h
      have hsub := run_subarray hsound hcell 0 (asBytes text).length (Nat.zero_le _) (le_refl _)
      rw [hmemory] at hsub
      exact ⟨_,hsub,(Linear.content_eq_some.mp hcell).2⟩
  obtain ⟨view,hsub,hslice⟩ := hread
  rw [getStringFromWasm0,run_bind_ok hview,run_bind_ok hsub]
  have hget : (get : Script World).run w' = .ok w' w' := rfl
  rw [run_bind_ok hget,hslice,hdecode]
  rfl

/-- A text is passed, and read again where it stands. -/
def passAndRead (pass : Script ℕ) : Script (ℕ × ℕ × JsString) := do
  let ptr ← pass
  let w ← get
  let got ← getStringFromWasm0 ptr w.WASM_VECTOR_LEN
  return (ptr,w.WASM_VECTOR_LEN,got)

/-- Whatever units a JavaScript string has, and whichever way it is passed, the library gets the bytes of
its text in a block of just their size, and reading them gives this text back: the string itself, if
its surrogates are in pairs. Nothing else in memory is touched, and nothing is thrown but for want of memory. -/
theorem text_arrives (hA : R.allocator.Documented) (h : w.memory.Sound) (arg : JsString) {pass : Script ℕ}
    (hpass : pass = passStringToWasm0 R arg ∨ pass = passWhole R arg) :
    Ends (passAndRead pass) w
      (fun result w' => result.2.1 = (asBytes (wellFormed arg)).length ∧
        result.2.2 = Utf16.ofString (wellFormed arg) ∧
        Placed w.memory.content result.1 (asBytes (wellFormed arg)) w'.memory.content ∧ w'.memory.Sound ∧
        w'.handles = w.handles) (Trapped w) ∧
      ∀ s, arg = Utf16.ofString s → Utf16.ofString (wellFormed arg) = arg := by
  constructor
  · have hpassed : Ends pass w (Passed w arg) (Trapped w) := by
      rcases hpass with rfl | rfl
      · exact passStringToWasm0_ends hA h arg
      · exact passWhole_ends hA h arg
    rw [passAndRead]
    refine hpassed.bind fun ptr w₁ hptr => ?_
    obtain ⟨hlen,c,hplaced,hinto⟩ := hptr
    rw [encode_wellFormed] at hlen hplaced
    obtain ⟨w₂,hread,hmemory,hhandles⟩ := run_getStringFromWasm0 hinto.sound hplaced hinto.contents
    rw [← hlen] at hread
    have hget : (get : Script World).run w₁ = .ok w₁ w₁ := rfl
    refine .after hget (.after hread (.of_ok rfl ⟨hlen,rfl,?_,?_,hhandles.trans hinto.handles⟩))
    · rw [hmemory,hinto.contents]
      exact hplaced
    · rw [hmemory]
      exact hinto.sound
  · rintro s rfl
    rw [wellFormed_ofString]

end

/-- Before the first call, whatever numbers the library is to choose. -/
def World.initial (externrefs objects : ℕ → ℕ) : World where
  memory := ⟨fun _ => 0,0,0,fun _ => none⟩
  handles := ⟨.empty externrefs,.empty objects⟩
  cachedUint8ArrayMemory0 := none
  WASM_VECTOR_LEN := 0

theorem World.initial_sound (externrefs objects : ℕ → ℕ) : (initial externrefs objects).memory.Sound := ⟨nofun,nofun⟩

/-- A letter, a character of two units, and a surrogate alone. -/
theorem text_arrives_lone : ∃ result w', (passAndRead (passStringToWasm0 ⟨.bump,true,true⟩ [0x7A,0xD83D,0xDD11,0xD800])).run
    (World.initial Nat.succ Nat.succ) = .ok result w' ∧ result.2.2 = [0x7A,0xD83D,0xDD11,0xFFFD] := by
  obtain ⟨harrives,_⟩ := text_arrives (R := ⟨.bump,true,true⟩) Allocator.bump_documented
    (World.initial_sound Nat.succ Nat.succ) [0x7A,0xD83D,0xDD11,0xD800] (.inl rfl)
  have hroom : ((passAndRead (passStringToWasm0 ⟨.bump,true,true⟩ [0x7A,0xD83D,0xDD11,0xD800])).run
      (World.initial Nat.succ Nat.succ) matches .ok _ _) = true := by
    decide +kernel
  have htext : Utf16.ofString (wellFormed [0x7A,0xD83D,0xDD11,0xD800]) = [0x7A,0xD83D,0xDD11,0xFFFD] := by
    decide +kernel
  cases hrun : (passAndRead (passStringToWasm0 ⟨.bump,true,true⟩ [0x7A,0xD83D,0xDD11,0xD800])).run
      (World.initial Nat.succ Nat.succ) with
  | ok result w' => exact ⟨result,w',rfl,(harrives.ok hrun).2.1.trans htext⟩
  | error e w' =>
    rw [hrun] at hroom
    cases hroom

end ZkasSigner.Js
