import JingjieAR.ArtworkInteractionModel
import JingjieAR.AuthMiddlewareModel
import JingjieAR.JsonTexts
import JingjieAR.ResponseFraming
import Mathlib.Data.List.Induction

/-! The replies about artworks, which are put together as texts. Whatever the visitors have
written, a JSON parser finds the fields that the handler has put in, and nothing else. -/
namespace JingjieAR

open HttpResponse (decimal)
open JsonText (Spells Reads ReadsMember)

namespace ArtworkInteractionHandlers

def writeString (output value : Bytes) : Bytes :=
  output++(34 :: (JsonUtil.escape value++[34]))

/-- `for (size_t index = 0; ...)` with `if (index) output << ','`. -/
def writeEach {α : Type} (write : Bytes → α → Bytes) (output : Bytes) (items : List α) : Bytes :=
  items.zipIdx.foldl
    (fun output item => write (if item.2 ≠ 0 then output++[comma] else output) item.1) output

def writeBool (value : Bool) : Bytes := if value then ascii "true" else ascii "false"

def artworkJson (artwork : ArtworkInfo) (result : ArtworkInteractionResult) : Bytes :=
  let output := ascii "\x7b\"artworkId\":"
  let output := writeString output artwork.id
  let output := output++ascii ",\"title\":"
  let output := writeString output artwork.title
  let output := output++ascii ",\"text\":"
  let output := writeString output artwork.text
  let output := output++ascii ",\"images\":["
  let output := writeEach writeString output artwork.images
  output++ascii "],\"likeCount\":"++decimal result.likeCount++
    ascii ",\"commentCount\":"++decimal result.commentCount++
    ascii ",\"liked\":"++writeBool result.liked++ascii "\x7d"

def writeComment (output : Bytes) (comment : ArtworkComment) : Bytes :=
  let output := output++ascii "\x7b\"id\":"++decimal comment.id++ascii ",\"username\":"
  let output := writeString output comment.username
  let output := output++ascii ",\"content\":"
  let output := writeString output comment.content
  output++ascii "\x7d"

def commentsJson (result : ArtworkInteractionResult) : Bytes :=
  let output := ascii "\x7b\"comments\":["
  let output := writeEach writeComment output result.comments
  output++ascii "],\"nextBefore\":"++decimal result.nextBefore++ascii "\x7d"

end ArtworkInteractionHandlers

namespace JsonUtil

/-- How a parser takes the escape of a byte. -/
def pieceOf (character : UInt8) : JsonText.Piece :=
  if character < 0x20 ∧ character ∉ [8, 9, 10, 12, 13] then .unit character.toNat
  else .byte character

/-- The control characters that have no short escape. -/
theorem hexQuad_control : ∀ n : ℕ, n < 0x20 →
    JsonText.hexQuad 48 48 (lowerHexDigit (n/16)) (lowerHexDigit (n%16)) = some n ∧
      String.utf8EncodeChar (Char.ofNat n) = [UInt8.ofNat n] := by
  decide

theorem escapeCharacter_control {c : UInt8} (h : c < 0x20) (hother : c ∉ [8, 9, 10, 12, 13]) :
    escapeCharacter c =
      92 :: 117 :: 48 :: 48 :: [lowerHexDigit (c.toNat/16), lowerHexDigit (c.toNat%16)] := by
  have hquote : c ≠ 34 := by
    rintro rfl
    exact absurd h (by decide)
  have hbackslash : c ≠ 92 := by
    rintro rfl
    exact absurd h (by decide)
  simp only [List.mem_cons, List.not_mem_nil, or_false, not_or] at hother
  obtain ⟨h8, h9, h10, h12, h13⟩ := hother
  rw [escapeCharacter, if_neg hquote, if_neg hbackslash, if_neg h8, if_neg h12, if_neg h10,
    if_neg h13, if_neg h9, if_pos h]
  rfl

theorem escapeCharacter_plain {c : UInt8} (hquote : c ≠ 34) (hbackslash : c ≠ 92) (h : ¬ c < 0x20) :
    escapeCharacter c = [c] := by
  have hne : ∀ d : UInt8, d < 0x20 → c ≠ d := by
    rintro d hd rfl
    exact h hd
  rw [escapeCharacter, if_neg hquote, if_neg hbackslash, if_neg (hne 8 (by decide)),
    if_neg (hne 12 (by decide)), if_neg (hne 10 (by decide)), if_neg (hne 13 (by decide)),
    if_neg (hne 9 (by decide)), if_neg h]

/-- The seven short escapes that are used: their letters and what these stand for. -/
theorem escapeCharacter_short {c : UInt8} (h : c ∈ [34, 92, 8, 9, 10, 12, 13]) :
    ∃ letter, escapeCharacter c = [92, letter] ∧ JsonText.simpleEscape letter = some c := by
  simp only [List.mem_cons, List.not_mem_nil, or_false] at h
  rcases h with rfl | rfl | rfl | rfl | rfl | rfl | rfl
  · exact ⟨34, by decide, by decide⟩
  · exact ⟨92, by decide, by decide⟩
  · exact ⟨98, by decide, by decide⟩
  · exact ⟨116, by decide, by decide⟩
  · exact ⟨110, by decide, by decide⟩
  · exact ⟨102, by decide, by decide⟩
  · exact ⟨114, by decide, by decide⟩

/-- The three forms of an escaped byte. -/
theorem escapeCharacter_cases (c : UInt8) :
    c ∈ [34, 92, 8, 9, 10, 12, 13] ∨ c < 0x20 ∧ c ∉ [8, 9, 10, 12, 13] ∨
      c ≠ 34 ∧ c ≠ 92 ∧ ¬ c < 0x20 := by
  by_cases hshort : c ∈ [34, 92, 8, 9, 10, 12, 13]
  · exact .inl hshort
  · right
    simp only [List.mem_cons, List.not_mem_nil, or_false, not_or] at hshort ⊢
    obtain ⟨h34, h92, hrest⟩ := hshort
    by_cases hcontrol : c < 0x20
    · exact .inl ⟨hcontrol, hrest⟩
    · exact .inr ⟨h34, h92, hcontrol⟩

theorem pieceOf_short {c : UInt8} (h : c ∈ [34, 92, 8, 9, 10, 12, 13]) : pieceOf c = .byte c := by
  simp only [List.mem_cons, List.not_mem_nil, or_false] at h
  rcases h with rfl | rfl | rfl | rfl | rfl | rfl | rfl
  all_goals rfl

theorem pieces_escapeCharacter (c : UInt8) (rest : Bytes) :
    JsonText.pieces (escapeCharacter c++rest) =
      (JsonText.pieces rest).map (fun p => (pieceOf c :: p.1, p.2)) := by
  rcases escapeCharacter_cases c with hshort | ⟨hcontrol, hother⟩ | ⟨hquote, hbackslash, hplain⟩
  · obtain ⟨letter, htext, hletter⟩ := escapeCharacter_short hshort
    rw [htext, pieceOf_short hshort]
    exact JsonText.pieces_escape hletter rest
  · have hquad := (hexQuad_control c.toNat (UInt8.lt_iff_toNat_lt.mp hcontrol)).1
    rw [escapeCharacter_control hcontrol hother, pieceOf, if_pos ⟨hcontrol, hother⟩]
    exact JsonText.pieces_unit hquad rest
  · rw [escapeCharacter_plain hquote hbackslash hplain, pieceOf, if_neg (fun h => hplain h.1)]
    exact JsonText.pieces_byte hquote hbackslash hplain rest

theorem pieces_escape (value rest : Bytes) :
    JsonText.pieces (escape value++34 :: rest) = some (value.map pieceOf, rest) := by
  induction value with
  | nil => exact JsonText.pieces_quote rest
  | cons c value ih =>
    have hcons : escape (c :: value)++34 :: rest = escapeCharacter c++(escape value++34 :: rest) :=
      List.append_assoc _ _ _
    rw [hcons, pieces_escapeCharacter, ih]
    rfl

theorem join_pieceOf (value : Bytes) : JsonText.join (value.map pieceOf) = some value := by
  induction value with
  | nil => rfl
  | cons c value ih =>
    rw [List.map_cons, pieceOf]
    split_ifs with hunit
    · have hlow : c.toNat < 0x20 := UInt8.lt_iff_toNat_lt.mp hunit.1
      rw [JsonText.join.eq_def]
      simp only
      rw [if_pos (.inl (by omega)), ih, (hexQuad_control c.toNat hlow).2, UInt8.ofNat_toNat]
      rfl
    · rw [JsonText.join, ih]
      rfl

/-- The escaped value stands for the value, for every string of bytes. -/
theorem escape_spells (value : Bytes) : Spells (escape value) value := by
  intro rest
  rw [JsonText.stringRest, pieces_escape]
  simp only [Option.bind_eq_bind, Option.bind_some, join_pieceOf]

theorem hasBareQuote_byte {c : UInt8} (hquote : c ≠ 34) (hbackslash : c ≠ 92) (rest : Bytes) :
    JsonText.hasBareQuote (c :: rest) = JsonText.hasBareQuote rest := by
  rw [JsonText.hasBareQuote.eq_def]
  split
  · contradiction
  · rename_i heq
    exact absurd (List.cons.inj heq).1 hbackslash
  · rename_i heq
    obtain ⟨rfl, rfl⟩ := List.cons.inj heq
    simp [hquote]

/-- No byte of the value ends the literal. -/
theorem hasBareQuote_escape (value : Bytes) : JsonText.hasBareQuote (escape value) = false := by
  have hstep : ∀ (c : UInt8) (rest : Bytes),
      JsonText.hasBareQuote (escapeCharacter c++rest) = JsonText.hasBareQuote rest := by
    intro c rest
    rcases escapeCharacter_cases c with hshort | ⟨hcontrol, hother⟩ | ⟨hquote, hbackslash, hplain⟩
    · obtain ⟨letter, htext, -⟩ := escapeCharacter_short hshort
      rw [htext]
      rfl
    · have hdigit : ∀ n < 16, lowerHexDigit n ≠ 34 ∧ lowerHexDigit n ≠ 92 := by decide
      have hnat : c.toNat < 0x20 := UInt8.lt_iff_toNat_lt.mp hcontrol
      obtain ⟨hhigh, hhigh'⟩ := hdigit (c.toNat/16) (by omega)
      obtain ⟨hlow, hlow'⟩ := hdigit (c.toNat%16) (Nat.mod_lt _ (by decide))
      rw [escapeCharacter_control hcontrol hother]
      change JsonText.hasBareQuote (48 :: 48 :: _ :: _ :: rest) = _
      rw [hasBareQuote_byte (by decide) (by decide), hasBareQuote_byte (by decide) (by decide),
        hasBareQuote_byte hhigh hhigh', hasBareQuote_byte hlow hlow']
    · rw [escapeCharacter_plain hquote hbackslash hplain]
      exact hasBareQuote_byte hquote hbackslash rest
  induction value with
  | nil => rfl
  | cons c value ih =>
    have hcons : escape (c :: value) = escapeCharacter c++escape value := rfl
    rw [hcons, hstep, ih]

theorem no_control_escape (value : Bytes) : ∀ c ∈ escape value, ¬ c < 0x20 := by
  intro c hc
  obtain ⟨b, -, hb⟩ := List.mem_flatMap.mp hc
  rcases escapeCharacter_cases b with hshort | ⟨hcontrol, hother⟩ | ⟨hquote, hbackslash, hplain⟩
  · obtain ⟨letter, htext, hletter⟩ := escapeCharacter_short hshort
    have hall : ∀ n < 0x20, JsonText.simpleEscape (UInt8.ofNat n) = none := by decide
    rw [htext] at hb
    rcases List.mem_cons.mp hb with rfl | hb
    · decide
    · obtain rfl := List.mem_singleton.mp hb
      intro hlow
      have hnone := hall c.toNat (UInt8.lt_iff_toNat_lt.mp hlow)
      rw [UInt8.ofNat_toNat, hletter] at hnone
      contradiction
  · have hdigit : ∀ n < 16, ¬ lowerHexDigit n < 0x20 := by decide
    have hnat : b.toNat < 0x20 := UInt8.lt_iff_toNat_lt.mp hcontrol
    rw [escapeCharacter_control hcontrol hother] at hb
    simp only [List.mem_cons, List.not_mem_nil, or_false] at hb
    rcases hb with rfl | rfl | rfl | rfl | rfl | rfl
    · decide
    · decide
    · decide
    · decide
    · exact hdigit (b.toNat/16) (by omega)
    · exact hdigit (b.toNat%16) (Nat.mod_lt _ (by decide))
  · rw [escapeCharacter_plain hquote hbackslash hplain] at hb
    obtain rfl := List.mem_singleton.mp hb
    exact hplain

end JsonUtil

section Numbers

/-- A number as it is written has no zero before other digits. -/
theorem canonical_decimal (n : ℕ) : JsonText.Canonical (decimal n) := by
  have hdecimal := decimal_decimal n
  refine ⟨hdecimal.ne_nil, hdecimal.digits, ?_⟩
  intro hhead
  rw [eq_zero_of_head_decimal hhead]
  rfl

theorem reads_decimal (n : ℕ) : Reads (decimal n) (.number n) := by
  have hvalue : JsonText.digitsValue (decimal n) = n := (decimal_decimal n).value
  have hreads := (canonical_decimal n).reads
  rwa [hvalue] at hreads

end Numbers

namespace ArtworkInteractionHandlers

theorem writeEach_from {α : Type} {write : Bytes → α → Bytes} (text : α → Bytes)
    (hwrite : ∀ output item, write output item = output++text item) (items : List α) (start : ℕ)
    (output : Bytes) :
    (items.zipIdx (start+1)).foldl
      (fun output item => write (if item.2 ≠ 0 then output++[comma] else output) item.1) output =
      output++items.flatMap (fun item => comma :: text item) := by
  induction items generalizing start output with
  | nil => simp
  | cons item items ih =>
    rw [List.zipIdx_cons, List.foldl_cons, ih, if_pos (Nat.succ_ne_zero start), hwrite]
    simp

theorem intercalate_cons_flatMap {α : Type} (text : α → Bytes) (item : α) (items : List α) :
    List.intercalate [comma] ((item :: items).map text) =
      text item++items.flatMap (fun item => comma :: text item) := by
  induction items generalizing item with
  | nil => simp
  | cons next items ih =>
    rw [List.map_cons, List.map_cons, List.intercalate_cons_cons, ← List.map_cons, ih]
    simp

/-- The loop writes the texts with commas between them. -/
theorem writeEach_eq {α : Type} {write : Bytes → α → Bytes} (text : α → Bytes)
    (hwrite : ∀ output item, write output item = output++text item) (output : Bytes)
    (items : List α) :
    writeEach write output items = output++List.intercalate [comma] (items.map text) := by
  cases items with
  | nil => simp [writeEach]
  | cons item items =>
    rw [writeEach, List.zipIdx_cons, List.foldl_cons, writeEach_from text hwrite items 0, hwrite,
      intercalate_cons_flatMap]
    simp

/-- A string between quotes. -/
def quoted (value : Bytes) : Bytes := 34 :: (JsonUtil.escape value++[34])

theorem quoted_reads (value : Bytes) : Reads (quoted value) (.string value) :=
  (JsonUtil.escape_spells value).reads

theorem writeBool_reads (value : Bool) : Reads (writeBool value) (.boolean value) := by
  cases value with
  | true => exact JsonText.reads_true
  | false => exact JsonText.reads_false

/-- A key that needs no escape, and the text of its value. -/
def member (key : String) (text : Bytes) : Bytes := 34 :: (ascii key++34 :: 58 :: text)

theorem member_reads (key : String) {text : Bytes} {v : JsonText.Value}
    (hkey : JsonUtil.escape (ascii key) = ascii key) (htext : Reads text v) :
    ReadsMember (member key text) (ascii key, v) := by
  have hspells := JsonUtil.escape_spells (ascii key)
  rw [hkey] at hspells
  exact .mk hspells htext

/-- What a parser finds in the reply about an artwork. -/
def artworkValue (artwork : ArtworkInfo) (result : ArtworkInteractionResult) : JsonText.Value :=
  .object [(ascii "artworkId", .string artwork.id), (ascii "title", .string artwork.title),
    (ascii "text", .string artwork.text),
    (ascii "images", .array (artwork.images.map .string)),
    (ascii "likeCount", .number result.likeCount),
    (ascii "commentCount", .number result.commentCount), (ascii "liked", .boolean result.liked)]

def commentValue (comment : ArtworkComment) : JsonText.Value :=
  .object [(ascii "id", .number comment.id), (ascii "username", .string comment.username),
    (ascii "content", .string comment.content)]

def commentsValue (result : ArtworkInteractionResult) : JsonText.Value :=
  .object [(ascii "comments", .array (result.comments.map commentValue)),
    (ascii "nextBefore", .number result.nextBefore)]

theorem images_reads (images : List Bytes) :
    Reads (91 :: (List.intercalate [comma] (images.map quoted)++[93]))
      (.array (images.map .string)) := by
  have hitems : ∀ item ∈ images.map (fun image => (quoted image, JsonText.Value.string image)),
      Reads item.1 item.2 := by
    intro item hitem
    obtain ⟨image, -, rfl⟩ := List.mem_map.mp hitem
    exact quoted_reads image
  have hreads := JsonText.reads_array hitems
  rw [List.map_map, List.map_map] at hreads
  exact hreads

theorem artworkJson_reads (artwork : ArtworkInfo) (result : ArtworkInteractionResult) :
    Reads (artworkJson artwork result) (artworkValue artwork result) := by
  have hobject := JsonText.reads_object
    (.cons (member_reads "artworkId" (by decide) (quoted_reads artwork.id))
    (.cons (member_reads "title" (by decide) (quoted_reads artwork.title))
    (.cons (member_reads "text" (by decide) (quoted_reads artwork.text))
    (.cons (member_reads "images" (by decide) (images_reads artwork.images))
    (.cons (member_reads "likeCount" (by decide) (reads_decimal result.likeCount))
    (.cons (member_reads "commentCount" (by decide) (reads_decimal result.commentCount))
    (.cons (member_reads "liked" (by decide) (writeBool_reads result.liked)) .nil)))))))
  have htext : artworkJson artwork result = 123 :: (List.intercalate [44]
      [member "artworkId" (quoted artwork.id), member "title" (quoted artwork.title),
        member "text" (quoted artwork.text),
        member "images" (91 :: (List.intercalate [comma] (artwork.images.map quoted)++[93])),
        member "likeCount" (decimal result.likeCount),
        member "commentCount" (decimal result.commentCount),
        member "liked" (writeBool result.liked)]++[125]) := by
    have hwrite : ∀ output image, writeString output image = output++quoted image :=
      fun output image => rfl
    simp only [artworkJson, writeEach_eq quoted hwrite, hwrite, member, quoted,
      List.intercalate_cons_cons, List.intercalate_singleton, List.append_assoc,
      List.cons_append, List.nil_append]
    rfl
  rw [htext]
  exact hobject

/-- What is written for a comment. -/
def commentText (comment : ArtworkComment) : Bytes :=
  123 :: (List.intercalate [44] [member "id" (decimal comment.id),
    member "username" (quoted comment.username), member "content" (quoted comment.content)]++[125])

theorem writeComment_eq (output : Bytes) (comment : ArtworkComment) :
    writeComment output comment = output++commentText comment := by
  simp only [writeComment, writeString, commentText, member, quoted, List.intercalate_cons_cons,
    List.intercalate_singleton, List.append_assoc, List.cons_append, List.nil_append]
  rfl

theorem commentText_reads (comment : ArtworkComment) :
    Reads (commentText comment) (commentValue comment) :=
  JsonText.reads_object
    (.cons (member_reads "id" (by decide) (reads_decimal comment.id))
    (.cons (member_reads "username" (by decide) (quoted_reads comment.username))
    (.cons (member_reads "content" (by decide) (quoted_reads comment.content)) .nil)))

theorem comments_reads (comments : List ArtworkComment) :
    Reads (91 :: (List.intercalate [comma] (comments.map commentText)++[93]))
      (.array (comments.map commentValue)) := by
  have hitems : ∀ item ∈ comments.map (fun comment => (commentText comment, commentValue comment)),
      Reads item.1 item.2 := by
    intro item hitem
    obtain ⟨comment, -, rfl⟩ := List.mem_map.mp hitem
    exact commentText_reads comment
  have hreads := JsonText.reads_array hitems
  rw [List.map_map, List.map_map] at hreads
  exact hreads

theorem commentsJson_reads (result : ArtworkInteractionResult) :
    Reads (commentsJson result) (commentsValue result) := by
  have hobject := JsonText.reads_object
    (.cons (member_reads "comments" (by decide) (comments_reads result.comments))
    (.cons (member_reads "nextBefore" (by decide) (reads_decimal result.nextBefore)) .nil))
  have htext : commentsJson result = 123 :: (List.intercalate [44]
      [member "comments" (91 :: (List.intercalate [comma] (result.comments.map commentText)++[93])),
        member "nextBefore" (decimal result.nextBefore)]++[125]) := by
    have hcomments := writeEach_eq commentText writeComment_eq
    simp only [commentsJson, hcomments, member, List.intercalate_cons_cons,
      List.intercalate_singleton, List.append_assoc, List.cons_append, List.nil_append]
    rfl
  rw [htext]
  exact hobject

/-- Every string of bytes comes back from its literal, which ends at its own closing quote; and
the replies are the objects of the fields that were put into them. -/
theorem json_injection_free :
    (∀ value rest : Bytes,
      JsonText.stringLiteral (34 :: (JsonUtil.escape value++34 :: rest)) = some (value, rest)) ∧
    (∀ value : Bytes, JsonText.hasBareQuote (JsonUtil.escape value) = false ∧
      ∀ c ∈ JsonUtil.escape value, ¬ c < 0x20) ∧
    (∀ artwork result, JsonText.parse (artworkJson artwork result) =
      some (artworkValue artwork result)) ∧
    ∀ result, JsonText.parse (commentsJson result) = some (commentsValue result) := by
  refine ⟨?_, ?_, ?_, ?_⟩
  · intro value rest
    exact JsonUtil.escape_spells value rest
  · intro value
    exact ⟨JsonUtil.hasBareQuote_escape value, JsonUtil.no_control_escape value⟩
  · intro artwork result
    exact (artworkJson_reads artwork result).parse
  · intro result
    exact (commentsJson_reads result).parse

end ArtworkInteractionHandlers

end JingjieAR
