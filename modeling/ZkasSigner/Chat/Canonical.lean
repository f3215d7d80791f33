import ZkasSigner.Foundation.Bytes
import ZkasSigner.Foundation.Text

/-! The canonical form an event id is the SHA-256 of. It has no white space and exactly
seven escapes, and its strings are otherwise written as they are. -/
namespace ZkasSigner.Chat
open Foundation Foundation.Text

/-- One character of `escape`: the seven rules, and nothing else. -/
def escapeChar : Char → List Char
  | '\n' => ['\\','n']
  | '"' => ['\\','"']
  | '\\' => ['\\','\\']
  | '\r' => ['\\','r']
  | '\t' => ['\\','t']
  | '\x08' => ['\\','b']
  | '\x0C' => ['\\','f']
  | other => [other]

def escape (s : String) : String := String.ofList (s.toList.flatMap escapeChar)

/-- One row of `serialize_tags`. -/
def serializeTag (t : List String) : String :=
  "[" ++ ",".intercalate (t.map fun v => "\"" ++ escape v ++ "\"") ++ "]"

def serializeTags (tags : List (List String)) : String :=
  "[" ++ ",".intercalate (tags.map serializeTag) ++ "]"

/-- The exact text an id is computed over. The public key goes in as it was given. -/
def canonical (pubkey : String) (createdAt : UInt64) (kind : UInt32) (tags : List (List String))
    (content : String) : String :=
  "[0,\"" ++ pubkey ++ "\"," ++ toString createdAt ++ "," ++ toString kind ++ "," ++
    serializeTags tags ++ ",\"" ++ escape content ++ "\"]"

def eventId (sha256 : List UInt8 → Bytes 32) (pubkey : String) (createdAt : UInt64) (kind : UInt32)
    (tags : List (List String)) (content : String) : Bytes 32 :=
  sha256 (asBytes (canonical pubkey createdAt kind tags content))

/-- The five fields an id commits to. -/
structure Fields where
  pubkey : String
  createdAt : UInt64
  kind : UInt32
  tags : List (List String)
  content : String
  deriving DecidableEq, Repr

def Fields.canonical (f : Fields) : String :=
  Chat.canonical f.pubkey f.createdAt f.kind f.tags f.content

def Fields.bytes (f : Fields) : List UInt8 := asBytes f.canonical

@[simp] theorem toList_escape (s : String) : (escape s).toList = s.toList.flatMap escapeChar := by
  simp [escape]

theorem escape_eq_self {s : String} (h : ∀ c ∈ s.toList, escapeChar c = [c]) : escape s = s := by
  rw [← String.toList_inj,toList_escape]
  calc s.toList.flatMap escapeChar = s.toList.flatMap List.singleton := List.flatMap_congr h
    _ = s.toList := List.flatMap_singleton' _

theorem toList_serializeTag (t : List String) :
    (serializeTag t).toList =
      '['::([','].intercalate (t.map fun v => '"'::(v.toList.flatMap escapeChar++['"']))++[']']) := by
  simp [serializeTag,String.toList_intercalate,Function.comp_def]

theorem toList_serializeTags (tags : List (List String)) :
    (serializeTags tags).toList =
      '['::([','].intercalate (tags.map fun t => (serializeTag t).toList)++[']']) := by
  simp [serializeTags,String.toList_intercalate,Function.comp_def]

theorem toString_uint64_toList (n : UInt64) : (toString n).toList = Nat.toDigits 10 n.toNat :=
  Nat.toList_repr

theorem toString_uint32_toList (n : UInt32) : (toString n).toList = Nat.toDigits 10 n.toNat :=
  Nat.toList_repr

theorem toList_canonical (pubkey : String) (createdAt : UInt64) (kind : UInt32)
    (tags : List (List String)) (content : String) :
    (canonical pubkey createdAt kind tags content).toList =
      "[0,\"".toList++(pubkey.toList++['"']++(",".toList++(Nat.toDigits 10 createdAt.toNat++(",".toList++
        (Nat.toDigits 10 kind.toNat++(",".toList++((serializeTags tags).toList++(",\"".toList++
          (content.toList.flatMap escapeChar++['"']++"]".toList))))))))) := by
  simp [canonical,toString_uint64_toList,toString_uint32_toList]

example : escape "a\x01\t\"\\" = "a\x01\\t\\\"\\\\" := by decide

end ZkasSigner.Chat
