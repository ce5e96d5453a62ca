import PropLogic.Proofs.Canonical.Parsing
import PropLogic.Proofs.Surface.Rewriting

/-!
# Operators separate

Only one operator can be drawn into what stands before it: `=>` behind `<` becomes part of `<=>`. In
any other place a text with an operator is rewritten in three parts, and the spaces around the token
keep its neighbours apart. So the tokens on both sides are those that the two sides have alone,
whether they belong to a formula or not.
-/

namespace PropLogic

namespace Surface

/-! ### Rewriting around an operator -/

/-- A spelling that begins with `p` and goes on into an operator is `<=>`, and the operator is `=>`. -/
private theorem straddling_cases {v w : Replacement} (hv : v ∈ replacements) (hw : w ∈ replacements)
    {p rest : List Char} (hp : p ≠ []) (hfits : v.spelling <+: p ++ (w.spelling ++ rest))
    (hbefore : ¬ v.spelling <+: p) : p = ['<'] ∧ w.spelling = ['=', '>'] := by
  have hall : ∀ v ∈ replacements, ∀ w ∈ replacements, ∀ n < v.spelling.length, 0 < n →
      v.spelling.drop n <+: w.spelling ∨ w.spelling <+: v.spelling.drop n →
        v.spelling.take n = ['<'] ∧ w.spelling = ['=', '>'] := by decide
  -- the rest of `v` behind `p` and the operator `w` begin at the same place, so one begins the other
  obtain ⟨q, hq⟩ : p <+: v.spelling :=
    (List.prefix_or_prefix_of_prefix hfits (List.prefix_append _ _)).resolve_left hbefore
  have hlength : p.length < v.spelling.length := by
    have hne : q ≠ [] := by
      rintro rfl
      rw [← hq, List.append_nil] at hbefore
      exact hbefore List.prefix_rfl
    have hpos := List.length_pos_iff.mpr hne
    rw [← hq, List.length_append]
    omega
  have hrest : q <+: w.spelling ++ rest := by
    rw [← hq] at hfits
    exact (List.prefix_append_right_inj p).mp hfits
  have hcases := hall v hv w hw p.length hlength (List.length_pos_iff.mpr hp)
  rw [← hq, List.drop_left, List.take_left] at hcases
  exact hcases (List.prefix_or_prefix_of_prefix hrest (List.prefix_append _ _))

private theorem normalizeChars_append_spelling {w : Replacement} (hw : w ∈ replacements)
    {cs ds : List Char}
    (h : Rewritten cs ds) (hfree : ¬ (w.spelling = ['=', '>'] ∧ ['<'] <:+ cs)) (rest : List Char) :
    normalizeChars (cs ++ (w.spelling ++ rest)) = ds ++ (w.padded ++ normalizeChars rest) := by
  -- along the pieces of the part before the operator: none of them is drawn into another spelling
  induction h with
  | nil => exact normalizeChars_spelling_append hw rest
  | @keep c cs ds hkeep _ ih =>
      have hfree' : ¬ (w.spelling = ['=', '>'] ∧ ['<'] <:+ cs) :=
        fun hend => hfree ⟨hend.1, hend.2.trans (List.suffix_cons c cs)⟩
      have hkeep' : ∀ v ∈ replacements, ¬ v.spelling <+: c :: (cs ++ (w.spelling ++ rest)) := by
        intro v hv hfits
        obtain ⟨hcs, hspelling⟩ :=
          straddling_cases hv hw (List.cons_ne_nil c cs) hfits (hkeep v hv)
        exact hfree ⟨hspelling, hcs ▸ List.suffix_rfl⟩
      rw [List.cons_append, normalizeChars_cons hkeep', ih hfree', List.cons_append]
  | @spelling v cs ds hv _ ih =>
      have hfree' : ¬ (w.spelling = ['=', '>'] ∧ ['<'] <:+ cs) :=
        fun hend => hfree ⟨hend.1, hend.2.trans (List.suffix_append v.spelling cs)⟩
      rw [List.append_assoc, normalizeChars_spelling_append hv, ih hfree', List.append_assoc]

theorem normalize_append_spelling {a b : String} {w : Replacement} (hw : w ∈ replacements)
    (hfree : ¬ (w.spelling = ['=', '>'] ∧ ['<'] <:+ a.toList)) :
    normalize (a ++ String.ofList w.spelling ++ b) =
      normalize a ++ String.ofList w.padded ++ normalize b := by
  have htext : (a ++ String.ofList w.spelling ++ b).toList =
      a.toList ++ (w.spelling ++ b.toList) := by simp
  rw [normalize, htext,
    normalizeChars_append_spelling hw (rewritten_normalizeChars a.toList) hfree, normalize,
    normalize, ← String.ofList_append, ← String.ofList_append, List.append_assoc]

/-! ### Scanning around an operator -/

/-- The scan of a token alone that begins at byte `start`. -/
def tokenAt (start : Nat) (t : Token) : Text.Scan Token :=
  ⟨[⟨t, start, start + Text.byteLength t.spelling⟩], none⟩

private theorem scan_padded_append (offset : Nat) (w : Replacement) (cs : List Char) :
    Token.lexicon.scan offset (w.padded ++ cs) =
      tokenAt (offset + 1) w.token ++
        (Token.lexicon.scan 0 cs).shift (offset + Text.byteLength w.padded) := by
  have hspace : Text.isBlank ' ' = true := by decide
  have hsize : ' '.utf8Size = 1 := by decide
  have hpadded : w.padded ++ cs = ' ' :: (w.token.spelling ++ ' ' :: cs) := by
    simp [Replacement.padded]
  have hlength : offset + Text.byteLength w.padded =
      offset + 1 + Text.byteLength w.token.spelling + 1 := by
    simp [Replacement.padded, hsize]
    omega
  have hrest : (Token.lexicon.scan 0 cs).shift (offset + Text.byteLength w.padded) =
      Token.lexicon.scan (offset + 1 + Text.byteLength w.token.spelling) (' ' :: cs) := by
    rw [← Text.Lexicon.scan_add Token.lexicon_regular, Nat.zero_add, hlength,
      Text.Lexicon.scan_cons_of_isBlank _ _ hspace, hsize]
  rw [hpadded, Text.Lexicon.scan_cons_of_isBlank _ _ hspace, hsize,
    Text.Lexicon.scan_append Token.lexicon_regular (Token.isLongest_spelling w.token _), hrest]
  rfl

/-- An operator stands between the tokens before it and those behind it as a token of its own. The
tokens of the text are those of the part before the operator, the operator, and those of the part
behind it, which begin later by the bytes before them. If no token begins at some place in one of
the two parts, the tokens end there. -/
theorem scan_normalize_operator {a b : String} {w : Replacement} (hw : w ∈ replacements)
    (hfree : ¬ (w.spelling = ['=', '>'] ∧ ['<'] <:+ a.toList)) :
    normalize (a ++ String.ofList w.spelling ++ b) =
      normalize a ++ String.ofList w.padded ++ normalize b ∧
    Token.scan (normalize (a ++ String.ofList w.spelling ++ b)) =
      Token.scan (normalize a) ++ tokenAt ((normalize a).utf8ByteSize + 1) w.token ++
        (Token.scan (normalize b)).shift (normalize a ++ String.ofList w.padded).utf8ByteSize := by
  have hnormal := normalize_append_spelling (b := b) hw hfree
  refine ⟨hnormal, ?_⟩
  have hspace : Text.isBlank ' ' = true := by decide
  have hpadded : w.padded = ' ' :: (w.token.spelling ++ [' ']) := by simp [Replacement.padded]
  have htext : (normalize a ++ String.ofList w.padded ++ normalize b).toList =
      (normalize a).toList ++ ' ' :: (w.token.spelling ++ [' '] ++ (normalize b).toList) := by
    simp [hpadded]
  have hbehind : ' ' :: (w.token.spelling ++ [' '] ++ (normalize b).toList) =
      w.padded ++ (normalize b).toList := by
    rw [hpadded, List.cons_append]
  rw [hnormal, Token.scan, htext,
    Text.Lexicon.scan_append_cons Token.lexicon_regular Token.lexicon_solid 0 _ hspace, hbehind,
    scan_padded_append, Nat.zero_add, Text.byteLength_toList, String.utf8ByteSize_append,
    Text.utf8ByteSize_ofList, Text.Scan.append_assoc]
  rfl

/-- The `<` in front of `<=>` stays behind the operator before it, and no token begins with `=r`.
The places count the bytes of the inserted spaces. -/
theorem scan_normalize_operator_touching :
    ⟨['=', '>'], .binary .implies⟩ ∈ replacements ∧
      ¬ (['=', '>'] = ['=', '>'] ∧ ['<'] <:+ "¬p".toList) ∧
      Token.scan (normalize "¬p=><=>=r") =
        ⟨[⟨.not, 1, 4⟩, ⟨.atom .p, 5, 6⟩, ⟨.binary .implies, 7, 9⟩, ⟨.binary .iff, 11, 13⟩],
          some 14⟩ := by
  have hmem : ⟨['=', '>'], .binary .implies⟩ ∈ replacements := by decide
  have hfree : ¬ (['=', '>'] = ['=', '>'] ∧ ['<'] <:+ "¬p".toList) := by decide
  have hbefore : Token.scan (normalize "¬p") = ⟨[⟨.not, 1, 4⟩, ⟨.atom .p, 5, 6⟩], none⟩ := by decide
  have hbehind : Token.scan (normalize "<=>=r") = ⟨[⟨.binary .iff, 1, 3⟩], some 4⟩ := by decide
  have hscan := (scan_normalize_operator (a := "¬p") (b := "<=>=r") hmem hfree).2
  rw [hbefore, hbehind] at hscan
  exact ⟨hmem, hfree, hscan⟩

end Surface

end PropLogic
