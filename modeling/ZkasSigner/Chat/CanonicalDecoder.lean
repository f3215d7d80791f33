import ZkasSigner.Foundation.Reading
import ZkasSigner.Chat.Canonical

/-! A decoder of the canonical form. The source has none: it is the evidence that no two
events share a canonical form, whatever their strings imitate. -/
namespace ZkasSigner.Chat
open Foundation.Text Foundation.Reading

def unescapeChar : Char → Option Char
  | 'n' => some '\n'
  | '"' => some '"'
  | '\\' => some '\\'
  | 'r' => some '\r'
  | 't' => some '\t'
  | 'b' => some '\x08'
  | 'f' => some '\x0C'
  | _ => none

def readBody : Reader Char String :=
  andThen (delimited '"' '\\' unescapeChar) fun cs => result (String.ofList cs)

def readString : Reader Char String := andThen (literal ['"']) fun _ => readBody

def readTag : Reader Char (List String) := listOf '[' ',' ']' readString

def readTags : Reader Char (List (List String)) := listOf '[' ',' ']' readTag

def readFields : Reader Char Fields :=
  andThen (literal "[0,\"".toList) fun _ =>
  andThen readBody fun pubkey =>
  andThen (literal ",".toList) fun _ =>
  andThen decimal fun createdAt =>
  andThen (literal ",".toList) fun _ =>
  andThen decimal fun kind =>
  andThen (literal ",".toList) fun _ =>
  andThen readTags fun tags =>
  andThen (literal ",\"".toList) fun _ =>
  andThen readBody fun content =>
  andThen (literal "]".toList) fun _ =>
  result ⟨pubkey,UInt64.ofNat createdAt,UInt32.ofNat kind,tags,content⟩

def decodeCanonical (s : String) : Option Fields :=
  match readFields s.toList with
  | some (f,[]) => some f
  | _ => none

/-- A quote or a backslash is written behind a backslash, so neither ever stands bare. -/
theorem escapeChar_escapes (c : Char) : Escapes '"' '\\' unescapeChar escapeChar c := by
  unfold Escapes
  fun_cases escapeChar c
  case case8 hn hq hb hr ht hx hf => exact Or.inl ⟨rfl,hq,hb⟩
  all_goals exact Or.inr ⟨_,rfl,rfl⟩

lemma readBody_reads {w : Char → List Char} (s : String)
    (h : ∀ c ∈ s.toList, Escapes '"' '\\' unescapeChar w c) :
    Reads readBody (s.toList.flatMap w++['"']) s anything := by
  have hr := andThen_reads_anything (f := fun cs => result (String.ofList cs))
    (delimited_reads (by decide) h) (result_reads (String.ofList s.toList))
  rwa [List.append_nil,String.ofList_toList] at hr

theorem readBody_escape (s : String) :
    Reads readBody (s.toList.flatMap escapeChar++['"']) s anything :=
  readBody_reads s fun c _ => escapeChar_escapes c

/-- Hexadecimal digits are written as they are and need no escape. -/
theorem readBody_hex {s : String} (h : IsHex s) : Reads readBody (s.toList++['"']) s anything := by
  have hr := readBody_reads (w := fun c => [c]) s fun c hc => by
    have hx := List.all_eq_true.mp h c hc
    refine Or.inl ⟨rfl,?_,?_⟩
    · rintro rfl; exact absurd hx (by decide)
    · rintro rfl; exact absurd hx (by decide)
  rwa [List.flatMap_singleton'] at hr

theorem readString_reads (s : String) :
    Reads readString ('"'::(s.toList.flatMap escapeChar++['"'])) s anything := by
  change Reads readString (['"']++(s.toList.flatMap escapeChar++['"'])) s anything
  exact andThen_reads_anything (literal_reads ['"']) (readBody_escape s)

theorem readTag_reads (t : List String) : Reads readTag (serializeTag t).toList t anything := by
  rw [toList_serializeTag]
  apply listOf_reads (by decide) fun s _ => readString_reads s
  intro s _
  exact ⟨'"',_,rfl,by decide⟩

theorem readTags_reads (tags : List (List String)) :
    Reads readTags (serializeTags tags).toList tags anything := by
  rw [toList_serializeTags]
  apply listOf_reads (by decide) fun t _ => readTag_reads t
  intro t _
  exact ⟨'[',_,toList_serializeTag t,by decide⟩

/-- Every field is taken off the canonical text in turn; the two numbers end at a comma. -/
theorem readFields_reads (f : Fields) (h : IsHex f.pubkey) :
    Reads readFields f.canonical.toList f anything := by
  have hcomma : ∀ w rest : List Char, NoDigit (",".toList++w++rest) := by
    intro w rest c hc
    have he : c = ',' := by simpa using hc.symm
    rw [he]; decide
  have hclose : Reads (andThen (literal "]".toList) fun _ => result f) ("]".toList++[]) f anything :=
    andThen_reads_anything (literal_reads _) (result_reads f)
  rw [List.append_nil] at hclose
  rw [Fields.canonical,toList_canonical]
  apply andThen_reads_anything (literal_reads _)
  apply andThen_reads_anything (readBody_hex h)
  apply andThen_reads_anything (literal_reads _)
  apply andThen_reads (decimal_reads _) ?_ fun rest _ => hcomma _ rest
  apply andThen_reads_anything (literal_reads _)
  apply andThen_reads (decimal_reads _) ?_ fun rest _ => hcomma _ rest
  apply andThen_reads_anything (literal_reads _)
  apply andThen_reads_anything (readTags_reads _)
  apply andThen_reads_anything (literal_reads _)
  apply andThen_reads_anything (readBody_escape _)
  rw [UInt64.ofNat_toNat,UInt32.ofNat_toNat]
  exact hclose

theorem decodeCanonical_canonical (f : Fields) (h : IsHex f.pubkey) :
    decodeCanonical f.canonical = some f := by
  have hr := readFields_reads f h [] trivial
  rw [List.append_nil] at hr
  rw [decodeCanonical,hr]

theorem canonical_inj {f g : Fields} (hf : IsHex f.pubkey) (hg : IsHex g.pubkey)
    (h : f.canonical = g.canonical) : f = g := by
  have hd := decodeCanonical_canonical f hf
  rw [h,decodeCanonical_canonical g hg] at hd
  exact (Option.some.inj hd).symm

/-- The canonical form is uniquely decodable, whatever the strings of an event imitate. -/
theorem canonical_uniquely_decodable (pubkey pubkey' : String) (createdAt createdAt' : UInt64)
    (kind kind' : UInt32) (tags tags' : List (List String)) (content content' : String)
    (hp : IsHex pubkey) (hp' : IsHex pubkey') :
    decodeCanonical (canonical pubkey createdAt kind tags content) =
      some ⟨pubkey,createdAt,kind,tags,content⟩ ∧
    (canonical pubkey createdAt kind tags content = canonical pubkey' createdAt' kind' tags' content' →
      pubkey = pubkey' ∧ createdAt = createdAt' ∧ kind = kind' ∧ tags = tags' ∧ content = content') := by
  constructor
  · exact decodeCanonical_canonical ⟨pubkey,createdAt,kind,tags,content⟩ hp
  · intro h
    have he := canonical_inj (f := ⟨pubkey,createdAt,kind,tags,content⟩)
      (g := ⟨pubkey',createdAt',kind',tags',content'⟩) hp hp' h
    simpa using he

/-- An empty tag list, an empty tag and an empty item stay apart, also from look-alike content. -/
theorem canonical_uniquely_decodable_empty :
    decodeCanonical (canonical "ab" 7 1 [[],[""]] "],\"") = some ⟨"ab",7,1,[[],[""]],"],\""⟩ ∧
      (canonical "ab" 7 1 [[],[""]] "],\"" = canonical "ab" 7 1 [[""]] "],\"" →
        "ab" = "ab" ∧ (7 : UInt64) = 7 ∧ (1 : UInt32) = 1 ∧ [[],[""]] = [[""]] ∧ "],\"" = "],\"") :=
  canonical_uniquely_decodable "ab" "ab" 7 7 1 1 [[],[""]] [[""]] "],\"" "],\"" (by decide) (by decide)

end ZkasSigner.Chat
