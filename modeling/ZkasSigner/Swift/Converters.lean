import ZkasSigner.Foundation.Bytes
import ZkasSigner.Foundation.Text
import ZkasSigner.Foundation.Wire

/-! The converters of the Swift binding. What crosses to the signer and back is written to bytes and
read from them: integers with the most significant byte first, text behind its length. -/
namespace ZkasSigner.Swift
open Foundation Foundation.Text Foundation.Wire

inductive UniffiInternalError where
  | bufferOverflow
  | incompleteData
  | unexpectedEnumCase
  | unexpectedRustCallStatusCode
  | unexpectedRustCallError
  | rustPanic (message : String)
  deriving DecidableEq

inductive SignerError where
  | Signer (reason : String)
  deriving DecidableEq

/-- A call throws, or it ends the process. -/
inductive Fault where
  | internal (e : UniffiInternalError)
  | refused (e : SignerError)
  | fatal (message : String)
  deriving DecidableEq

/-- What an unwrapping without a value ends with. -/
def unwrappedNil : Fault := .fatal "Unexpectedly found nil while unwrapping an Optional value"

/-- The data of a buffer, and how far it is read. -/
structure DataReader where
  data : List UInt8
  offset : ℕ
  inside : offset ≤ data.length

def createReader (data : List UInt8) : DataReader := ⟨data,0,Nat.zero_le _⟩

def hasRemaining (reader : DataReader) : Bool := reader.offset < reader.data.length

abbrev Read := Reader DataReader Fault

/-- The bytes at the offset, which moves past them. -/
def copyBytes (count : ℕ) : Read (List UInt8) := do
  let reader ← get
  if h : reader.offset+count ≤ reader.data.length then
    set (DataReader.mk reader.data (reader.offset+count) h)
    return (reader.data.drop reader.offset).take count
  else throw (.internal .bufferOverflow)

/-- The integers of the binding, as patterns of a whole number of bytes. -/
class FixedWidthInteger (T : Type) where
  size : ℕ
  ofBits : BitVec (8*size) → T
  bits : T → BitVec (8*size)
  ofBits_bits : ∀ v, ofBits (bits v) = v
  bits_ofBits : ∀ b, bits (ofBits b) = b

open FixedWidthInteger

instance : FixedWidthInteger Int32 where
  size := 4
  ofBits := Int32.ofBitVec
  bits := Int32.toBitVec
  ofBits_bits := Int32.ofBitVec_toBitVec
  bits_ofBits := Int32.toBitVec_ofBitVec

section
variable (T : Type) [FixedWidthInteger T]

def readInt : Read T := do
  let bytes ← copyBytes (size T)
  return ofBits (BitVec.ofNat _ (Bytes.ofBigEndian bytes))

variable {T}

/-- What is appended to the writer. -/
def writeInt (value : T) : List UInt8 := Bytes.toBigEndian (size T) (bits value).toNat

end

def readBytes (count : ℤ) : Read (List UInt8) :=
  if 0 ≤ count then copyBytes count.toNat
  else throw (.fatal "Range requires lowerBound <= upperBound")

def unwrap {α : Type} : Option α → Except Fault α
  | some a => .ok a
  | none => .error unwrappedNil

namespace FfiConverterString

def read : Read String := do
  let len ← readInt Int32
  let bytes ← readBytes len.toInt
  unwrap (decodeUtf8 bytes)

/-- A count that is no `Int32` ends the process. -/
def write (value : String) : Except Fault (List UInt8) :=
  let count := (asBytes value).length
  if count < 2^31 then .ok (writeInt (Int32.ofNat count) ++ asBytes value)
  else .error (.fatal "Not enough bits to represent the passed value")

end FfiConverterString

structure GeneratedWallet where
  mnemonic : String
  address : String
  deriving DecidableEq

namespace FfiConverterTypeGeneratedWallet

def read : Read GeneratedWallet := do
  let mnemonic ← FfiConverterString.read
  let address ← FfiConverterString.read
  return ⟨mnemonic,address⟩

def write (value : GeneratedWallet) : Except Fault (List UInt8) := do
  let mnemonic ← FfiConverterString.write value.mnemonic
  let address ← FfiConverterString.write value.address
  return mnemonic ++ address

end FfiConverterTypeGeneratedWallet

namespace FfiConverterTypeSignerError

def read : Read SignerError := do
  let variant ← readInt Int32
  if variant = 1 then
    let reason ← FfiConverterString.read
    return .Signer reason
  else throw (.internal .unexpectedEnumCase)

def write : SignerError → Except Fault (List UInt8)
  | .Signer reason => do
    let text ← FfiConverterString.write reason
    return writeInt (1 : Int32) ++ text

end FfiConverterTypeSignerError

/-- The part of `lift` that reads: the value must be all there is. -/
def readWhole {α : Type} (read : Read α) (data : List UInt8) : Except Fault α := do
  let (value,reader) ← read.run (createReader data)
  if hasRemaining reader then throw (.internal .incompleteData)
  return value

/-! ### Exactness -/

/-- The data that is left. -/
def DataReader.rest (reader : DataReader) : List UInt8 := reader.data.drop reader.offset

theorem run_copyBytes (count : ℕ) (r : DataReader) : (copyBytes count).run r =
    if h : r.offset+count ≤ r.data.length then
      .ok ((r.data.drop r.offset).take count,⟨r.data,r.offset+count,h⟩)
    else .error (.internal .bufferOverflow) := by
  by_cases h : r.offset+count ≤ r.data.length
  · rw [dif_pos h]
    change (if h : r.offset+count ≤ r.data.length then _ else _ : Read (List UInt8)).run r = _
    rw [dif_pos h]
    rfl
  · rw [dif_neg h]
    change (if h : r.offset+count ≤ r.data.length then _ else _ : Read (List UInt8)).run r = _
    rw [dif_neg h]
    rfl

theorem length_rest (r : DataReader) : r.rest.length = r.data.length-r.offset := List.length_drop

theorem copyBytes_exact (count : ℕ) :
    Exact DataReader.rest (copyBytes count) fun bytes w => bytes = w ∧ w.length = count := by
  intro r bytes tail
  have hinside := r.inside
  have hlength := length_rest r
  rw [run_copyBytes]
  constructor
  · rintro ⟨r',h,rfl⟩
    split at h
    · cases h
      refine ⟨_,⟨rfl,?_⟩,?_⟩
      · rw [List.length_take,List.length_drop]
        omega
      · rw [DataReader.rest,DataReader.rest,← List.drop_drop,List.take_append_drop]
    · cases h
  · rintro ⟨w,⟨rfl,hw⟩,hrest⟩
    rw [hrest,List.length_append] at hlength
    have hfits : r.offset+count ≤ r.data.length := by omega
    rw [dif_pos hfits]
    rw [DataReader.rest] at hrest
    refine ⟨_,by rw [hrest,List.take_left' hw],?_⟩
    rw [DataReader.rest,← List.drop_drop,hrest,List.drop_left' hw]

theorem copyBytes_short (count : ℕ) : FailsShort DataReader.rest (copyBytes count)
    (fun bytes w => bytes = w ∧ w.length = count) (.internal .bufferOverflow) := by
  rintro r bytes w missing ⟨rfl,hw⟩ hcut hmissing
  have hinside := r.inside
  have hlength := length_rest r
  have hpos := List.length_pos_iff.mpr hmissing
  rw [hcut,List.length_append] at hw
  rw [run_copyBytes,dif_neg (by omega)]

section
variable {T : Type} [FixedWidthInteger T]

theorem length_writeInt (value : T) : (writeInt value).length = size T := Bytes.toBigEndian_length _ _

theorem readInt_form (value : T) (w : List UInt8) : w = writeInt value ↔ ∃ bytes u v, (bytes = u ∧ u.length = size T) ∧
    (value = ofBits (BitVec.ofNat _ (Bytes.ofBigEndian bytes)) ∧ v = []) ∧ w = u ++ v := by
  constructor
  · rintro rfl
    refine ⟨_,_,_,⟨rfl,length_writeInt value⟩,⟨?_,rfl⟩,(List.append_nil _).symm⟩
    have hlt : (bits value).toNat < 256^size T := by
      have hbits := (bits value).isLt
      rwa [pow_mul] at hbits
    rw [writeInt,Bytes.ofBigEndian_toBigEndian hlt,BitVec.ofNat_toNat,BitVec.setWidth_eq,ofBits_bits]
  · rintro ⟨bytes,u,v,⟨rfl,hu⟩,⟨rfl,rfl⟩,rfl⟩
    have hlt := Bytes.ofBigEndian_lt bytes
    rw [hu] at hlt
    have hmod : Bytes.ofBigEndian bytes % 2^(8*size T) = Bytes.ofBigEndian bytes := by
      rw [pow_mul]
      exact Nat.mod_eq_of_lt hlt
    rw [List.append_nil,writeInt,bits_ofBits,BitVec.toNat_ofNat,hmod,← hu,Bytes.toBigEndian_ofBigEndian]

theorem readInt_exact : Exact DataReader.rest (readInt T) fun value w => w = writeInt value :=
  ((copyBytes_exact _).bind fun _ => exact_pure _).congr readInt_form

theorem readInt_short : FailsShort DataReader.rest (readInt T) (fun value w => w = writeInt value)
    (.internal .bufferOverflow) :=
  ((copyBytes_short _).bind (copyBytes_exact _) fun _ => failsShort_of_nil fun _ _ h => h.2).congr fun value w =>
    (readInt_form value w).mp

end

theorem unwrap_eq_ok {α : Type} {o : Option α} {a : α} : unwrap o = .ok a ↔ o = some a := by
  cases o <;> simp [unwrap]

namespace FfiConverterString

theorem write_eq_ok {value : String} {w : List UInt8} : write value = .ok w ↔
    (asBytes value).length < 2^31 ∧ w = writeInt (Int32.ofNat (asBytes value).length) ++ asBytes value := by
  rw [write]
  split
  · rename_i hcount
    rw [Except.ok.injEq,and_iff_right hcount,eq_comm]
  · rename_i hcount
    exact iff_of_false nofun fun h => hcount h.1

theorem write_form (value : String) (w : List UInt8) : write value = .ok w ↔ ∃ (len : Int32) (u v : _), u = writeInt len ∧
    (∃ bytes u' v', (0 ≤ len.toInt ∧ bytes = u' ∧ u'.length = len.toInt.toNat) ∧
      (unwrap (decodeUtf8 bytes) = .ok value ∧ v' = []) ∧ v = u' ++ v') ∧ w = u ++ v := by
  simp only [write_eq_ok,unwrap_eq_ok,decodeUtf8_eq_some]
  constructor
  · rintro ⟨hcount,rfl⟩
    have hlen : (Int32.ofNat (asBytes value).length).toInt = (asBytes value).length :=
      Int32.toInt_ofNat_of_lt hcount
    refine ⟨_,_,_,rfl,⟨_,_,_,⟨?_,rfl,?_⟩,⟨rfl,rfl⟩,(List.append_nil _).symm⟩,rfl⟩
    · rw [hlen]
      exact Int.natCast_nonneg _
    · rw [hlen,Int.toNat_natCast]
  · rintro ⟨len,_,_,rfl,⟨_,_,_,⟨hpos,rfl,hlength⟩,⟨rfl,rfl⟩,rfl⟩,rfl⟩
    have hlt := len.toInt_lt
    have hlen : Int32.ofNat (asBytes value).length = len := by
      rw [hlength]
      exact Int32.ofNat_toNatClampNeg len (Int32.le_iff_toInt_le.mpr hpos)
    refine ⟨by omega,?_⟩
    rw [hlen,List.append_nil]

theorem read_eq : read = readInt Int32 >>= fun len => readBytes len.toInt >>= fun bytes =>
    StateT.lift (unwrap (decodeUtf8 bytes)) := rfl

theorem read_exact : Exact DataReader.rest read fun value w => write value = .ok w := by
  rw [read_eq]
  refine Exact.congr (readInt_exact.bind fun len => ((copyBytes_exact len.toInt.toNat).guard _).bind fun bytes =>
    exact_lift _) ?_
  exact write_form

theorem read_short : FailsShort DataReader.rest read (fun value w => write value = .ok w) (.internal .bufferOverflow) := by
  rw [read_eq]
  refine FailsShort.congr (readInt_short.bind readInt_exact fun len =>
    ((copyBytes_short len.toInt.toNat).guard _).bind ((copyBytes_exact len.toInt.toNat).guard _) fun bytes =>
      (failsShort_of_nil fun _ _ h => h.2 : FailsShort _ _ (fun value w =>
        unwrap (decodeUtf8 bytes) = .ok value ∧ w = []) _)) ?_
  exact fun value w => (write_form value w).mp

end FfiConverterString

theorem except_bind_eq_ok {α β : Type} {x : Except Fault α} {f : α → Except Fault β} {b : β} :
    (x >>= f) = .ok b ↔ ∃ a, x = .ok a ∧ f a = .ok b := by
  cases x <;> simp [bind,Except.bind]

namespace FfiConverterTypeGeneratedWallet

theorem write_form (value : GeneratedWallet) (w : List UInt8) : write value = .ok w ↔ ∃ mnemonic u v,
    FfiConverterString.write mnemonic = .ok u ∧ (∃ address u' v', FfiConverterString.write address = .ok u' ∧
      (value = ⟨mnemonic,address⟩ ∧ v' = []) ∧ v = u' ++ v') ∧ w = u ++ v := by
  simp only [write,except_bind_eq_ok]
  constructor
  · rintro ⟨u,hu,v,hv,h⟩
    cases h
    exact ⟨_,_,_,hu,⟨_,_,_,hv,⟨rfl,rfl⟩,(List.append_nil _).symm⟩,rfl⟩
  · rintro ⟨_,u,_,hu,⟨_,v,_,hv,⟨rfl,rfl⟩,rfl⟩,rfl⟩
    rw [List.append_nil]
    exact ⟨u,hu,v,hv,rfl⟩

theorem read_exact : Exact DataReader.rest read fun value w => write value = .ok w :=
  (FfiConverterString.read_exact.bind fun _ => FfiConverterString.read_exact.bind fun _ => exact_pure _).congr write_form

theorem read_short : FailsShort DataReader.rest read (fun value w => write value = .ok w) (.internal .bufferOverflow) :=
  (FfiConverterString.read_short.bind FfiConverterString.read_exact fun _ =>
    FfiConverterString.read_short.bind FfiConverterString.read_exact fun _ =>
      failsShort_of_nil fun _ _ h => h.2).congr fun value w => (write_form value w).mp

end FfiConverterTypeGeneratedWallet

namespace FfiConverterTypeSignerError

theorem write_form (value : SignerError) (w : List UInt8) : write value = .ok w ↔ ∃ (variant : Int32) (u v : _),
    u = writeInt variant ∧ (variant = 1 ∧ ∃ reason u' v', FfiConverterString.write reason = .ok u' ∧
      (value = .Signer reason ∧ v' = []) ∧ v = u' ++ v') ∧ w = u ++ v := by
  cases value with
  | Signer reason =>
    simp only [write,except_bind_eq_ok]
    constructor
    · rintro ⟨v,hv,h⟩
      cases h
      exact ⟨1,_,_,rfl,⟨rfl,_,_,_,hv,⟨rfl,rfl⟩,(List.append_nil _).symm⟩,rfl⟩
    · rintro ⟨_,_,_,rfl,⟨rfl,_,v,_,hv,⟨h,rfl⟩,rfl⟩,rfl⟩
      cases h
      rw [List.append_nil]
      exact ⟨v,hv,rfl⟩

theorem read_exact : Exact DataReader.rest read fun value w => write value = .ok w :=
  (readInt_exact.bind fun _ => (FfiConverterString.read_exact.bind fun _ => exact_pure _).guard _).congr write_form

theorem read_short : FailsShort DataReader.rest read (fun value w => write value = .ok w) (.internal .bufferOverflow) :=
  (readInt_short.bind readInt_exact fun _ => (FfiConverterString.read_short.bind FfiConverterString.read_exact fun _ =>
    failsShort_of_nil fun _ _ h => h.2).guard _).congr fun value w => (write_form value w).mp

theorem exists_write {reason : String} (h : (asBytes reason).length < 2^31) :
    ∃ bytes, write (.Signer reason) = .ok bytes := by
  rw [write,FfiConverterString.write_eq_ok.mpr ⟨h,rfl⟩]
  exact ⟨_,rfl⟩

end FfiConverterTypeSignerError

section
variable {α : Type} {read : Read α} {write : α → Except Fault (List UInt8)} {value : α} {data : List UInt8}

theorem hasRemaining_iff (r : DataReader) : hasRemaining r = true ↔ r.rest ≠ [] := by
  rw [hasRemaining,decide_eq_true_iff,← List.length_pos_iff,length_rest]
  omega

theorem readWhole_eq (read : Read α) (data : List UInt8) : readWhole read data =
    match read.run (createReader data) with
    | .ok (value,reader) => if hasRemaining reader then .error (.internal .incompleteData) else .ok value
    | .error e => .error e := by
  rw [readWhole]
  cases read.run (createReader data) with
  | error e => rfl
  | ok p =>
    obtain ⟨value,r⟩ := p
    change (if hasRemaining r then _ else _ : Except Fault α) = if hasRemaining r then _ else _
    cases hasRemaining r <;> rfl

theorem readWhole_eq_ok (hread : Exact DataReader.rest read fun value w => write value = .ok w) :
    readWhole read data = .ok value ↔ write value = .ok data := by
  have hwhole : (∃ r, read.run (createReader data) = .ok (value,r) ∧ r.rest = []) ↔ write value = .ok data :=
    hread.whole
  rw [← hwhole,readWhole_eq]
  constructor
  · intro h
    split at h
    · rename_i value' r hrun
      split at h
      · cases h
      · rename_i hrest
        cases h
        exact ⟨r,hrun,not_not.mp fun hne => hrest ((hasRemaining_iff r).mpr hne)⟩
    · cases h
  · rintro ⟨r,hrun,hrest⟩
    simp only [hrun]
    rw [if_neg fun h => (hasRemaining_iff r).mp h hrest]

theorem readWhole_short (hread : FailsShort DataReader.rest read (fun value w => write value = .ok w)
    (.internal .bufferOverflow)) {missing : List UInt8} (hwrite : write value = .ok (data ++ missing))
    (hmissing : missing ≠ []) : readWhole read data = .error (.internal .bufferOverflow) := by
  rw [readWhole_eq,hread (createReader data) value _ missing hwrite rfl hmissing]

theorem readWhole_more (hread : Exact DataReader.rest read fun value w => write value = .ok w) {more : List UInt8}
    (hwrite : write value = .ok data) (hmore : more ≠ []) :
    readWhole read (data ++ more) = .error (.internal .incompleteData) := by
  obtain ⟨r,hrun,hrest⟩ := (hread (createReader (data ++ more)) value more).mpr ⟨data,hwrite,rfl⟩
  rw [readWhole_eq,hrun]
  exact if_pos ((hasRemaining_iff r).mpr (by rwa [hrest]))

end

/-- A buffer is taken for a value exactly when it is what the value is written as. One that is cut short
is read past its end, and one with anything behind it is incomplete. -/
def Faithful {α : Type} (read : Read α) (write : α → Except Fault (List UInt8)) : Prop :=
  ∀ value data, (readWhole read data = .ok value ↔ write value = .ok data) ∧
    (∀ missing, write value = .ok (data ++ missing) → missing ≠ [] →
      readWhole read data = .error (.internal .bufferOverflow)) ∧
    ∀ more, write value = .ok data → more ≠ [] → readWhole read (data ++ more) = .error (.internal .incompleteData)

theorem buffers_faithful : Faithful FfiConverterTypeGeneratedWallet.read FfiConverterTypeGeneratedWallet.write ∧
    Faithful FfiConverterTypeSignerError.read FfiConverterTypeSignerError.write :=
  ⟨fun _ _ => ⟨readWhole_eq_ok FfiConverterTypeGeneratedWallet.read_exact,
      fun _ => readWhole_short FfiConverterTypeGeneratedWallet.read_short,
      fun _ => readWhole_more FfiConverterTypeGeneratedWallet.read_exact⟩,
    fun _ _ => ⟨readWhole_eq_ok FfiConverterTypeSignerError.read_exact,
      fun _ => readWhole_short FfiConverterTypeSignerError.read_short,
      fun _ => readWhole_more FfiConverterTypeSignerError.read_exact⟩⟩

end ZkasSigner.Swift
