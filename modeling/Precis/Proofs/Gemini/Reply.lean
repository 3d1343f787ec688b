import Precis.Gemini.Backend
import Precis.Proofs.Json.Reading
import Precis.Proofs.Json.Record
import Precis.Proofs.Json.Writing

/-!
Contract: a reply reads as what it says, however it is spelled.

Owns which documents depict a reply in object form, with members in any order,
with members that nobody asked for, and with every optional part left out or
null where it is missing; and that reading a text of such a document gives back
the reply.

Does not own replies whose records are written as arrays.
-/

namespace Precis.Gemini

open Json

/-! ### Optional members and lists -/

section Members

variable {α β : Type} {depicts : α → Document → Prop} {decode : Decoder β} {read : α → β}
  {members : Members} {name : String}

/-- What stands under a name for an optional value: nothing or null where it is missing. -/
inductive OptionalMember (depicts : α → Document → Prop) (members : Members) (name : String) :
    Option α → Prop
  | absent (absent : field? members name = none) : OptionalMember depicts members name none
  | null (null : field? members name = some .null) : OptionalMember depicts members name none
  | present
      {value : α}
      {document : Document}
      (stands : field? members name = some document)
      (depicted : depicts value document) :
      OptionalMember depicts members name (some value)

/-- What stands under a name for a list: an array, or nothing for the empty list. -/
inductive ListMember (depicts : α → Document → Prop) (members : Members) (name : String) :
    List α → Prop
  | absent (absent : field? members name = none) : ListMember depicts members name []
  | present
      {values : List α}
      {items : List Document}
      (stands : field? members name = some (.array items))
      (depicted : List.Forall₂ depicts values items) :
      ListMember depicts members name values

theorem OptionalMember.yields
    {value : Option α}
    (member : OptionalMember depicts members name value)
    (decodes : ∀ value document, depicts value document →
      document ≠ .null ∧ decode document = .ok (read value)) :
    Yields (decodeOptional decode) members name none (value.map read) := by
  cases member with
  | absent absent => exact .inr ⟨absent, rfl⟩
  | null null => exact .inl ⟨.null, null, rfl⟩
  | present stands depicted =>
      obtain ⟨notNull, decoded⟩ := decodes _ _ depicted
      refine .inl ⟨_, stands, ?_⟩
      rw [decodeOptional_of_ne_null decode notNull, decoded]
      rfl

theorem ListMember.yields
    {values : List α}
    (member : ListMember depicts members name values)
    (decodes : ∀ value document, depicts value document → decode document = .ok (read value)) :
    Yields (decodeList decode) members name [] (values.map read) := by
  cases member with
  | absent absent => exact .inr ⟨absent, rfl⟩
  | present stands depicted =>
      exact .inl ⟨_, stands, decodeList_of_forall₂ (depicted.imp decodes)⟩

end Members

/-! ### Documents of a reply -/

/-- A reply as the interface has it: candidates with or without content, whose
parts have a text or none, and the total of tokens, if it is told. -/
structure RawReply where
  candidates : List (Option (List (Option String)))
  usage : Option UInt64
deriving DecidableEq, Repr

/-- A part without text has the empty text. -/
def RawReply.reply (raw : RawReply) : Summary.Reply :=
  { candidates := raw.candidates.map (Option.map (List.map (Option.getD · "")))
    usage := raw.usage }

inductive DepictsText : String → Document → Prop
  | mk (text : String) : DepictsText text (.string (some text))

inductive DepictsTotal : UInt64 → Document → Prop
  | mk (total : UInt64) : DepictsTotal total (.number (.integer total.toNat))

inductive DepictsPart : Option String → Document → Prop
  | mk
      {text : Option String}
      {members : Members}
      (namedOnce : NamedOnce ["text"] members)
      (textMember : OptionalMember DepictsText members "text" text) :
      DepictsPart text (.object members)

inductive DepictsContent : List (Option String) → Document → Prop
  | mk
      {parts : List (Option String)}
      {members : Members}
      (namedOnce : NamedOnce ["parts"] members)
      (partsMember : ListMember DepictsPart members "parts" parts) :
      DepictsContent parts (.object members)

inductive DepictsCandidate : Option (List (Option String)) → Document → Prop
  | mk
      {content : Option (List (Option String))}
      {members : Members}
      (namedOnce : NamedOnce ["content"] members)
      (contentMember : OptionalMember DepictsContent members "content" content) :
      DepictsCandidate content (.object members)

/-- The usage of a reply, which may be there and not tell the total. -/
inductive DepictsUsage : Option UInt64 → Document → Prop
  | mk
      {total : Option UInt64}
      {members : Members}
      (namedOnce : NamedOnce ["totalTokenCount"] members)
      (totalMember : OptionalMember DepictsTotal members "totalTokenCount" total) :
      DepictsUsage total (.object members)

inductive DepictsReply : RawReply → Document → Prop
  | mk
      {candidates : List (Option (List (Option String)))}
      {usage : Option (Option UInt64)}
      {members : Members}
      (namedOnce : NamedOnce ["candidates", "usageMetadata"] members)
      (candidatesMember : ListMember DepictsCandidate members "candidates" candidates)
      (usageMember : OptionalMember DepictsUsage members "usageMetadata" usage) :
      DepictsReply { candidates, usage := usage.join } (.object members)

/-- The texts that spell a reply in object form. -/
def Renders (raw : RawReply) (text : String) : Prop :=
  ∃ document, DepictsReply raw document ∧ SpellsPadded document text.toList

/-! ### Reading the documents -/

theorem DepictsText.decode {text : String} {document : Document}
    (depicts : DepictsText text document) :
    document ≠ .null ∧ decodeText document = .ok (id text) := by
  cases depicts
  exact ⟨Document.noConfusion, rfl⟩

theorem DepictsTotal.decode {total : UInt64} {document : Document}
    (depicts : DepictsTotal total document) :
    document ≠ .null ∧ decodeUnsigned64 document = .ok (id total) := by
  cases depicts
  refine ⟨Document.noConfusion, ?_⟩
  have bounded : (total.toNat : Int) ≤ (18446744073709551615 : Nat) := by
    have := total.toNat_lt
    omega
  rw [decodeUnsigned64, decodeUnsigned, if_pos ⟨Int.natCast_nonneg _, bounded⟩]
  show Except.ok (UInt64.ofNat total.toNat) = _
  rw [UInt64.ofNat_toNat]
  rfl

theorem DepictsPart.decode {text : Option String} {document : Document}
    (depicts : DepictsPart text document) : decodePart document = .ok (text.getD "") := by
  obtain ⟨namedOnce, member⟩ := depicts
  have yields := member.yields fun _ _ => DepictsText.decode
  rw [decodePart, decodeRecord_single _ _ namedOnce yields, Option.map_id]
  rfl

theorem DepictsContent.decode {parts : List (Option String)} {document : Document}
    (depicts : DepictsContent parts document) :
    document ≠ .null ∧ decodeContent document = .ok (parts.map (Option.getD · "")) := by
  obtain ⟨namedOnce, member⟩ := depicts
  have yields := member.yields fun _ _ => DepictsPart.decode
  exact ⟨Document.noConfusion, decodeRecord_single _ _ namedOnce yields⟩

theorem DepictsCandidate.decode {content : Option (List (Option String))} {document : Document}
    (depicts : DepictsCandidate content document) :
    decodeCandidate document = .ok (content.map (List.map (Option.getD · ""))) := by
  obtain ⟨namedOnce, member⟩ := depicts
  have yields := member.yields fun _ _ => DepictsContent.decode
  exact decodeRecord_single _ _ namedOnce yields

theorem DepictsUsage.decode {total : Option UInt64} {document : Document}
    (depicts : DepictsUsage total document) :
    document ≠ .null ∧ decodeUsage document = .ok (id total) := by
  obtain ⟨namedOnce, member⟩ := depicts
  have yields := member.yields fun _ _ => DepictsTotal.decode
  rw [Option.map_id] at yields
  exact ⟨Document.noConfusion, decodeRecord_single _ _ namedOnce yields⟩

theorem DepictsReply.decode {raw : RawReply} {document : Document}
    (depicts : DepictsReply raw document) : decodeReply document = .ok raw.reply := by
  obtain @⟨candidates, usage, members, namedOnce, candidatesMember, usageMember⟩ := depicts
  have candidatesYield := candidatesMember.yields fun _ _ => DepictsCandidate.decode
  have usageYields := usageMember.yields fun _ _ => DepictsUsage.decode
  rw [Option.map_id] at usageYields
  apply decodeRecord_of_readable
  · exact namedOnce
  · exact readable_storing candidatesYield.decode_eq
      (readable_storing usageYields.decode_eq (readable_nil members))
  · intro final reads
    have distinct : (FieldRule.names replyFields).Nodup := by decide
    have finalCandidates : final.candidates =
        id (candidates.map (Option.map (List.map (Option.getD · "")))) :=
      reads.part_of_yields 0 rfl distinct (by simp [replyFields]) (fun _ _ => rfl) rfl
        candidatesYield
    have finalUsage : final.usage = usage.join :=
      reads.part_of_yields 1 rfl distinct (by simp [replyFields]) (fun _ _ => rfl) rfl usageYields
    obtain ⟨_, _⟩ := final
    simp only at finalCandidates finalUsage
    rw [finalCandidates, finalUsage]
    rfl

theorem Renders.readText {raw : RawReply} {text : String} (renders : Renders raw text) :
    readText decodeReply text = .ok raw.reply := by
  obtain ⟨document, depicts, spells⟩ := renders
  simp only [Gemini.readText, ofText?_of_spells spells, depicts.decode]

theorem Renders.readResponse
    {raw : RawReply}
    {text : String}
    {response : Http.Response}
    (renders : Renders raw text)
    (success : Http.isSuccess response.status = true)
    (isText : response.text? = some text) :
    readResponse decodeReply response = .ok raw.reply := by
  have noLimit : response.status ≠ Http.tooManyRequests := by
    intro limited
    rw [limited] at success
    cases success
  simp only [Gemini.readResponse, if_neg noLimit, isText, if_pos success, renders.readText]

/-! ### The first text -/

theorem RawReply.firstText_eq_ok_iff (raw : RawReply) (summary : String) :
    raw.reply.firstText = .ok summary ↔
      ∃ part parts, raw.candidates.head? = some (some (part :: parts)) ∧
        summary = part.getD "" := by
  obtain ⟨candidates, usage⟩ := raw
  rcases candidates with _ | ⟨_ | _ | ⟨part, parts⟩, others⟩ <;>
    simp [RawReply.reply, Summary.Reply.firstText, eq_comm]

theorem RawReply.firstText_eq_noContent_iff (raw : RawReply) :
    raw.reply.firstText = .error .noContent ↔
      raw.candidates = [] ∨ raw.candidates.head? = some none := by
  obtain ⟨candidates, usage⟩ := raw
  rcases candidates with _ | ⟨_ | _ | ⟨part, parts⟩, others⟩ <;>
    simp [RawReply.reply, Summary.Reply.firstText]

theorem RawReply.firstText_eq_noContentParts_iff (raw : RawReply) :
    raw.reply.firstText = .error .noContentParts ↔ raw.candidates.head? = some (some []) := by
  obtain ⟨candidates, usage⟩ := raw
  rcases candidates with _ | ⟨_ | _ | ⟨part, parts⟩, others⟩ <;>
    simp [RawReply.reply, Summary.Reply.firstText]

/-! ### One rendering -/

/-- A reply whose first candidate has a text and misses one, and whose second has no content. -/
def pairReply : RawReply :=
  { candidates := [some [some "😀", none], none]
    usage := some 18446744073709551615 }

/-- A surrogate pair, a null for a text, a candidate without content, blanks, a
member that nobody asked for, and the greatest total, which comes first. -/
def pairText : String :=
  "\x7b\"usageMetadata\":\x7b\"totalTokenCount\":18446744073709551615\x7d, " ++
    "\"note\":[null],\"candidates\":[\x7b\"content\":\x7b\"parts\":[\x7b\"text\":\"\\ud83d" ++
    "\\ude00\"\x7d,\x7b\"text\":null\x7d]\x7d\x7d\n,\x7b\x7d]\x7d"

def pairParts : Document :=
  .array [.object [(some "text", .string (some "😀"))], .object [(some "text", .null)]]

def pairCandidates : Document :=
  .array [.object [(some "content", .object [(some "parts", pairParts)])], .object []]

def pairUsage : Value :=
  .object [("totalTokenCount", .number (.integer 18446744073709551615))]

def pairMembers : Members :=
  [(some "usageMetadata", pairUsage.toDocument), (some "note", .array [.null]),
    (some "candidates", pairCandidates)]

theorem depicts_pairReply : DepictsReply pairReply (.object pairMembers) := by
  have parts : DepictsContent [some "😀", none] (.object [(some "parts", pairParts)]) :=
    .mk ⟨by decide, by decide⟩ (.present rfl
      (.cons (.mk ⟨by decide, by decide⟩ (.present rfl (.mk "😀")))
        (.cons (.mk ⟨by decide, by decide⟩ (.null rfl)) .nil)))
  have candidates : List.Forall₂ DepictsCandidate [some [some "😀", none], none]
      [.object [(some "content", .object [(some "parts", pairParts)])], .object []] :=
    .cons (.mk ⟨by decide, by decide⟩ (.present rfl parts))
      (.cons (.mk ⟨by decide, by decide⟩ (.absent rfl)) .nil)
  have usage : DepictsUsage (some 18446744073709551615) pairUsage.toDocument :=
    .mk ⟨by decide, by decide⟩ (.present rfl (.mk _))
  exact .mk ⟨by decide, by decide⟩ (.present rfl candidates) (.present rfl usage)

theorem spells_pairText : SpellsPadded (.object pairMembers) pairText.toList := by
  have space : Blanks [' '] := by simp [Blanks]
  have lineBreak : Blanks ['\n'] := by simp [Blanks]
  have usageExact : pairUsage.Exact := ⟨⟨18446744073709551615, by decide, rfl⟩, trivial⟩
  have pair : SpellsString (some "😀") "\"\\ud83d\\ude00\"".toList :=
    .text (.cons (.code rfl rfl rfl rfl) (.cons (.code rfl rfl rfl rfl) .nil))
      (.pair (by decide) (by decide) (by decide) .nil)
  have parts : Spells pairParts _ :=
    .array (.cons (.bare (.object (.last (.bare "text" (.string pair)))))
      (.last (.bare (.object (.last (.bare "text" .null))))))
  have content : Spells (.object [(some "content", .object [(some "parts", pairParts)])]) _ :=
    .object (.last (.bare "content" (.object (.last (.bare "parts" parts)))))
  have candidates : Spells pairCandidates _ :=
    .array (.cons (.mk blanks_nil content lineBreak) (.last (.bare (.emptyObject blanks_nil))))
  have note : SpellsMember (some "note", .array [.null]) _ :=
    .mk space (spellsString_spellString "note") blanks_nil (.bare (.array (.last (.bare .null))))
  have members : SpellsPadded (.object pairMembers) _ :=
    .bare (.object (.cons (.bare "usageMetadata" (pairUsage.spells_spell usageExact))
      (.cons note (.last (.bare "candidates" candidates)))))
  convert members using 1
  decide +kernel

theorem renders_pairText : Renders pairReply pairText :=
  ⟨.object pairMembers, depicts_pairReply, spells_pairText⟩

/-! ### Every rendering -/

/-- Reading inverts every rendering of a reply, in a text and in a response. The
first text of what was read is the text of the first part of the first
candidate; it is missing where the reply has no such part. -/
theorem read_of_renders
    {raw : RawReply}
    {text : String}
    (renders : Renders raw text) :
    ∃ reply : Summary.Reply,
      reply.candidates = raw.candidates.map (Option.map (List.map (Option.getD · ""))) ∧
      reply.usage = raw.usage ∧
      readText decodeReply text = .ok reply ∧
      (∀ response : Http.Response, Http.isSuccess response.status = true →
        response.text? = some text → readResponse decodeReply response = .ok reply) ∧
      (∀ summary, reply.firstText = .ok summary ↔
        ∃ part parts, raw.candidates.head? = some (some (part :: parts)) ∧
          summary = part.getD "") ∧
      (reply.firstText = .error .noContent ↔
        raw.candidates = [] ∨ raw.candidates.head? = some none) ∧
      (reply.firstText = .error .noContentParts ↔ raw.candidates.head? = some (some [])) :=
  ⟨raw.reply, rfl, rfl, renders.readText,
    fun _ success isText => renders.readResponse success isText,
    raw.firstText_eq_ok_iff, raw.firstText_eq_noContent_iff, raw.firstText_eq_noContentParts_iff⟩

theorem read_of_renders_pair :
    Renders pairReply pairText ∧ ∃ reply : Summary.Reply,
      readText decodeReply pairText = .ok reply ∧ reply.firstText = .ok "😀" := by
  obtain ⟨reply, _, _, read, _, first, _⟩ := read_of_renders renders_pairText
  exact ⟨renders_pairText, reply, read, (first "😀").mpr ⟨_, _, rfl, rfl⟩⟩

end Precis.Gemini
