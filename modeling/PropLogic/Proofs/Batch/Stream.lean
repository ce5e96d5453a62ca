import PropLogic.Batch.Stream
import PropLogic.Proofs.Text.Lines
import PropLogic.Proofs.Text.Replacing

/-!
# Streams and texts

A stream is cut into lines as bytes, chunk by chunk, and a text as characters. Both give the same
entries if the bytes are those of the text, since a line feed is a byte of no other character. A
stream whose bytes are not UTF-8 has a line whose bytes are not UTF-8, and this line ends the batch.
-/

namespace PropLogic.Batch

open Text (KeepsLines)

/-! ### Entries -/

theorem entries_eq_of_map_trim_eq {ls ls' : List (List Char)}
    (h : ls.map Text.trim = ls'.map Text.trim) (number : Nat) :
    entries number ls = entries number ls' := by
  induction ls generalizing ls' number with
  | nil =>
      rw [List.map_nil, eq_comm, List.map_eq_nil_iff] at h
      rw [h]
  | cons line ls ih =>
      obtain ⟨line', ls', rfl, hline, hls⟩ := List.map_eq_cons_iff.mp h.symm
      rw [entries, entries, ih hls.symm, ofLine?, ofLine?, request?, request?, hline]

private theorem decodedEntries_map_some (number : Nat) (ls : List (List Char)) :
    decodedEntries number (ls.map some) = .ok (entries number ls) := by
  induction ls generalizing number with
  | nil => rfl
  | cons line ls ih => rw [List.map_cons, decodedEntries, ih, entries, Except.map]

private theorem decodedEntries_of_none_mem {ls : List (Option (List Char))} (h : none ∈ ls)
    (number : Nat) :
    decodedEntries number ls = .error .invalidUtf8 := by
  induction ls generalizing number with
  | nil => cases h
  | cons line ls ih =>
      cases line with
      | none => rfl
      | some line =>
          have hls : none ∈ ls := by simpa using h
          rw [decodedEntries, ih hls, Except.map]

/-! ### Carriage returns -/

/-- A line feed with a carriage return before it, and every other character alone. -/
def withReturn (c : Char) : List Char := if c = '\n' then ['\r', '\n'] else [c]

def withReturns (text : String) : String := String.ofList (text.toList.flatMap withReturn)

private theorem keepsLines_withReturn : KeepsLines '\n' '\n' withReturn where
  ends := ⟨['\r'], by decide, rfl⟩
  other c hc := by simp [withReturn, hc, Ne.symm hc]
  ne_nil c := by
    unfold withReturn
    split <;> simp

private theorem trim_flatMap_withReturn {text line : List Char} (hline : line ∈ Text.lines '\n' text) :
    Text.trim (line.flatMap withReturn) = Text.trim line := by
  obtain ⟨w, hw, h⟩ := Text.eq_or_eq_concat_of_mem_lines hline
  have hkept : w.flatMap withReturn = w := by
    apply Text.flatMap_eq_self
    intro c hc
    rw [withReturn, if_neg]
    rintro rfl
    exact hw hc
  rcases h with rfl | rfl
  · rw [hkept]
  · have hend : ['\n'].flatMap withReturn = ['\r', '\n'] := rfl
    rw [List.flatMap_append, hkept, hend, Text.trim_append w (by decide),
      Text.trim_append w (by decide)]

private theorem ofText_withReturns (text : String) : ofText (withReturns text) = ofText text := by
  apply entries_eq_of_map_trim_eq
  rw [lines, lines, withReturns, String.toList_ofList, keepsLines_withReturn.lines_flatMap]
  simp only [List.map_map]
  apply List.map_congr_left
  intro line hline
  simp only [Function.comp_apply, Text.trim_chomp, trim_flatMap_withReturn hline]

/-! ### Bytes -/

def joined : List ByteArray → ByteArray
  | [] => ByteArray.empty
  | chunk :: chunks => chunk ++ joined chunks

theorem streamLines_eq_lines {unfinished : List UInt8} (h : lineFeed ∉ unfinished)
    (chunks : List ByteArray) :
    streamLines unfinished chunks =
      Text.lines lineFeed (unfinished ++ (joined chunks).data.toList) := by
  induction chunks generalizing unfinished with
  | nil =>
      have hnil : unfinished ++ (joined []).data.toList = unfinished := List.append_nil unfinished
      rw [hnil, (Text.Lined.rest h).lines_eq, streamLines, List.nil_append]
  | cons chunk chunks ih =>
      obtain ⟨complete, rest, hlined⟩ :=
        Text.exists_lined lineFeed (unfinished ++ chunk.data.toList)
      rw [joined, ByteArray.data_append, Array.toList_append, ← List.append_assoc,
        hlined.lines_append, ← ih hlined.not_mem, streamLines, hlined.completeLines_eq]

private theorem lineFeed_not_mem_utf8EncodeChar {c : Char} (hc : c ≠ '\n') :
    lineFeed ∉ String.utf8EncodeChar c := by
  have hval : c.val.toNat ≠ 10 := fun h => hc (Char.ext (UInt32.toNat_inj.mp h))
  have hbyte (n : Nat) (hn : n % 256 ≠ 10) : lineFeed ≠ UInt8.ofNat n := by
    intro h
    exact hn (congrArg UInt8.toNat h).symm
  -- the bytes of the codes with two and more bytes are at least 0x80
  fun_cases String.utf8EncodeChar c <;>
    simp only [List.mem_cons, List.not_mem_nil, or_false, not_or] <;>
    and_intros <;> apply hbyte <;> omega

private theorem keepsLines_utf8EncodeChar : KeepsLines '\n' lineFeed String.utf8EncodeChar where
  ends := ⟨[], List.not_mem_nil, by decide⟩
  other _ hc := lineFeed_not_mem_utf8EncodeChar hc
  ne_nil _ := String.utf8EncodeChar_ne_nil

theorem fromUTF8?_toByteArray (s : String) : String.fromUTF8? s.toByteArray = some s := by
  rw [String.fromUTF8?, dif_pos s.isValidUTF8]
  rfl

theorem isValidUTF8_iff {bytes : ByteArray} :
    bytes.IsValidUTF8 ↔ ∃ text : String, bytes = text.toUTF8 := by
  constructor
  · intro h
    exact ⟨String.fromUTF8 bytes h, rfl⟩
  · rintro ⟨text, rfl⟩
    exact text.isValidUTF8

private theorem decodeLine?_flatMap_utf8EncodeChar (cs : List Char) :
    decodeLine? (cs.flatMap String.utf8EncodeChar) = some (Text.chomp cs) := by
  have hbytes : (cs.flatMap String.utf8EncodeChar).toByteArray = (String.ofList cs).toByteArray :=
    String.toByteArray_ofList.symm
  rw [decodeLine?, hbytes, fromUTF8?_toByteArray, Option.map_some, String.toList_ofList]

theorem map_decodeLine?_lines (text : String) :
    (Text.lines lineFeed text.toUTF8.data.toList).map decodeLine? = (lines text).map some := by
  have hbytes : text.toUTF8.data.toList = text.toList.flatMap String.utf8EncodeChar := by
    rw [String.toUTF8_eq_toByteArray, ← String.utf8Encode_toList]
    exact List.toList_data_toByteArray
  have hdecode : decodeLine? ∘ List.flatMap String.utf8EncodeChar = some ∘ Text.chomp :=
    funext decodeLine?_flatMap_utf8EncodeChar
  rw [hbytes, keepsLines_utf8EncodeChar.lines_flatMap, List.map_map, hdecode, ← List.map_map, lines]

theorem decodeLine?_eq_none_iff {line : List UInt8} :
    decodeLine? line = none ↔ ¬ line.toByteArray.IsValidUTF8 := by
  rw [decodeLine?, Option.map_eq_none_iff, String.fromUTF8?]
  split <;> simp [*]

theorem isValidUTF8_flatten {ls : List (List UInt8)}
    (h : ∀ line ∈ ls, line.toByteArray.IsValidUTF8) : ls.flatten.toByteArray.IsValidUTF8 := by
  induction ls with
  | nil => exact ByteArray.isValidUTF8_empty
  | cons line ls ih =>
      rw [List.flatten_cons, List.toByteArray_append]
      exact (h line List.mem_cons_self).append (ih fun l hl => h l (List.mem_cons_of_mem _ hl))

/-! ### Streams -/

private theorem ofStream_eq_decodedEntries (chunks : List ByteArray) :
    ofStream chunks =
      decodedEntries 1 ((Text.lines lineFeed (joined chunks).data.toList).map decodeLine?) := by
  rw [ofStream, streamLines_eq_lines List.not_mem_nil, List.nil_append]

theorem ofStream_of_joined_eq {chunks : List ByteArray} {text : String}
    (h : joined chunks = text.toUTF8) : ofStream chunks = .ok (ofText text) := by
  rw [ofStream_eq_decodedEntries, h, map_decodeLine?_lines, decodedEntries_map_some, ofText]

theorem exists_not_isValidUTF8_of_lines {bytes : ByteArray} (h : ¬ bytes.IsValidUTF8) :
    ∃ line ∈ Text.lines lineFeed bytes.data.toList, ¬ line.toByteArray.IsValidUTF8 := by
  apply Classical.byContradiction
  intro hnone
  have hlines : ∀ line ∈ Text.lines lineFeed bytes.data.toList, line.toByteArray.IsValidUTF8 := by
    simpa using hnone
  have hwhole := isValidUTF8_flatten hlines
  have hbytes : bytes.data.toList.toByteArray = bytes :=
    ByteArray.ext (Array.toList_inj.mp List.toList_data_toByteArray)
  rw [Text.flatten_lines, hbytes] at hwhole
  exact h hwhole

theorem ofStream_of_not_isValidUTF8 {chunks : List ByteArray} (h : ¬ (joined chunks).IsValidUTF8) :
    ofStream chunks = .error .invalidUtf8 := by
  obtain ⟨line, hline, hinvalid⟩ := exists_not_isValidUTF8_of_lines h
  rw [ofStream_eq_decodedEntries]
  apply decodedEntries_of_none_mem
  exact List.mem_map.mpr ⟨line, hline, decodeLine?_eq_none_iff.mpr hinvalid⟩

/-- A stream has the entries of the text that its bytes encode, in whatever chunks they come. If
they encode no text, there is an error and no entry. A carriage return before every line feed of a
text changes no entry. -/
theorem ofStream_agrees_with_ofText (chunks : List ByteArray) :
    (∀ text : String, joined chunks = text.toUTF8 → ofStream chunks = .ok (ofText text)) ∧
      ((¬ ∃ text : String, joined chunks = text.toUTF8) →
        ∃ e, ofStream chunks = .error e ∧ e.kind = .invalidData) ∧
      ∀ text : String, ofText (withReturns text) = ofText text ∧
        (joined chunks = (withReturns text).toUTF8 → ofStream chunks = .ok (ofText text)) := by
  refine ⟨fun text => ofStream_of_joined_eq, ?_, ?_⟩
  · intro hnone
    refine ⟨.invalidUtf8, ofStream_of_not_isValidUTF8 fun hvalid => hnone ?_, rfl⟩
    exact ⟨String.fromUTF8 (joined chunks) hvalid, rfl⟩
  · intro text
    refine ⟨ofText_withReturns text, fun h => ?_⟩
    rw [ofStream_of_joined_eq h, ofText_withReturns]

/-- A chunk ends inside of a character and another one inside of a line break. -/
theorem ofStream_agrees_with_ofText_split :
    (∃ chunks : List ByteArray, chunks = [⟨#[0xc2]⟩, ⟨#[0xac, 0x70, 0x0d]⟩, ⟨#[0x0a, 0x71]⟩] ∧
      joined chunks = "¬p\r\nq".toUTF8 ∧ ofStream chunks = .ok (ofText "¬p\nq")) ∧
      ∃ e, ofStream [⟨#[0x70, 0x0a, 0xff]⟩] = .error e ∧ e.kind = .invalidData := by
  constructor
  · have hbytes : joined [⟨#[0xc2]⟩, ⟨#[0xac, 0x70, 0x0d]⟩, ⟨#[0x0a, 0x71]⟩] =
        (withReturns "¬p\nq").toUTF8 := by decide
    exact ⟨_, rfl, hbytes, ((ofStream_agrees_with_ofText _).2.2 _).2 hbytes⟩
  · apply (ofStream_agrees_with_ofText _).2.1
    intro h
    obtain ⟨text, htext⟩ := h
    have hvalid : ¬ (joined [⟨#[0x70, 0x0a, 0xff]⟩]).IsValidUTF8 := by decide
    exact hvalid (htext ▸ text.isValidUTF8)

end PropLogic.Batch
