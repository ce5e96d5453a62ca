import PropLogic.Proofs.Canonical.Faults

/-!
# White space in canonical texts

Tokens may be written with any white space before, between and after them, or with none. The text
has these tokens at the places where they were written, so what is read, and where reading stops,
depends on the tokens alone. White space around a whole text moves the place of a fault and changes
nothing else.
-/

namespace PropLogic

/-! ### Texts of given tokens -/

/-- Characters that are all white space. -/
structure Text.Blanks where
  chars : List Char
  all_isBlank : chars.all isBlank = true

private theorem Text.Blanks.isBlank_of_mem (w : Text.Blanks) : ∀ c ∈ w.chars, isBlank c = true :=
  List.all_eq_true.mp w.all_isBlank

/-- A token and the white space in front of it. -/
structure SpacedToken where
  blanks : Text.Blanks
  token : Token

namespace SpacedToken

def chars (x : SpacedToken) : List Char := x.blanks.chars ++ x.token.spelling

def text (xs : List SpacedToken) (after : Text.Blanks) : String :=
  String.ofList (xs.flatMap chars ++ after.chars)

/-- The places of tokens that are written from byte `offset` on. A token begins behind its own white
space, and the next one is written behind it. -/
def places (offset : Nat) : List SpacedToken → List (Text.Lexeme Token)
  | [] => []
  | x :: xs =>
      let start := offset + Text.byteLength x.blanks.chars
      let stop := start + Text.byteLength x.token.spelling
      ⟨x.token, start, stop⟩ :: places stop xs

@[simp] theorem map_token_places (offset : Nat) (xs : List SpacedToken) :
    (places offset xs).map Text.Lexeme.token = xs.map token := by
  induction xs generalizing offset with
  | nil => rfl
  | cons x xs ih => simp [places, ih]

private theorem scan_eq_places (offset : Nat) (xs : List SpacedToken) (after : Text.Blanks) :
    Token.lexicon.scan offset (xs.flatMap chars ++ after.chars) = ⟨places offset xs, none⟩ := by
  induction xs generalizing offset with
  | nil => exact Text.Lexicon.scan_blank offset after.isBlank_of_mem
  | cons x xs ih =>
      rw [List.flatMap_cons, chars, List.append_assoc, List.append_assoc,
        Text.Lexicon.scan_blank_append offset x.blanks.isBlank_of_mem,
        Text.Lexicon.scan_append Token.lexicon_regular (Token.isLongest_spelling x.token _)]
      simp only [ih]
      rfl

private theorem scan_text (xs : List SpacedToken) (after : Text.Blanks) :
    Token.scan (text xs after) = ⟨places 0 xs, none⟩ := by
  rw [Token.scan, text, String.toList_ofList, scan_eq_places]

end SpacedToken

/-! ### Reading lexemes at other places -/

/-- Two outcomes of reading lexemes `ls` and `ls'` that have the same tokens: the same formula, or
the same token that does not fit, or an end that comes too early, and the same tokens that would
have fitted. -/
inductive SameReading (ls ls' : List (Text.Lexeme Token)) :
    Except SyntaxFault Formula → Except SyntaxFault Formula → Prop where
  | formula (f : Formula) : SameReading ls ls' (.ok f) (.ok f)
  | token {n : Nat} {l l' : Text.Lexeme Token} (expected : List Token) :
      ls[n]? = some l → ls'[n]? = some l' →
        SameReading ls ls' (.error (.unrecognizedToken l expected))
          (.error (.unrecognizedToken l' expected))
  | ending {l l' : Text.Lexeme Token} (expected : List Token) :
      ls.getLast? = some l → ls'.getLast? = some l' →
        SameReading ls ls' (.error (.unrecognizedEnd l.stop expected))
          (.error (.unrecognizedEnd l'.stop expected))

namespace ParseState

private theorem sameReading_read {ls ls' : List (Text.Lexeme Token)}
    (htokens : ls.map Text.Lexeme.token = ls'.map Text.Lexeme.token) (hne : ls ≠ []) (s : ParseState)
    (stop stop' : Nat) : SameReading ls ls' (s.read stop ls none) (s.read stop' ls' none) := by
  cases hrun : s.run? (ls.map Text.Lexeme.token) with
  | none =>
      obtain ⟨before, l, after, s', rfl, hbefore, hrefused⟩ := exists_refused hrun
      rw [List.map_append, List.map_cons] at htokens
      obtain ⟨before', rest', rfl, hbefore', hrest'⟩ := List.map_eq_append_iff.mp htokens.symm
      obtain ⟨l', after', rfl, hl', -⟩ := List.map_eq_cons_iff.mp hrest'
      have hlength : before'.length = before.length := by
        simpa using congrArg List.length hbefore'
      have hread := read_of_refused hbefore hrefused stop after none
      rw [← hbefore'] at hbefore
      rw [← hl'] at hrefused
      rw [hread, read_of_refused hbefore hrefused stop' after' none, hl']
      refine .token _ (n := before.length) ?_ ?_
      · simp
      · simp [← hlength]
  | some s' =>
      have hrun' := hrun
      rw [htokens] at hrun'
      cases hresult : s'.result? with
      | some f =>
          rw [read_eq_ok_iff.mpr ⟨rfl, s', hrun, hresult⟩,
            read_eq_ok_iff.mpr ⟨rfl, s', hrun', hresult⟩]
          exact .formula f
      | none =>
          have hne' : ls' ≠ [] := by
            rintro rfl
            exact hne (List.map_eq_nil_iff.mp htokens)
          obtain ⟨before, l, rfl⟩ : ∃ before l, ls = before ++ [l] :=
            ⟨_, _, (List.dropLast_concat_getLast hne).symm⟩
          obtain ⟨before', l', rfl⟩ : ∃ before l, ls' = before ++ [l] :=
            ⟨_, _, (List.dropLast_concat_getLast hne').symm⟩
          rw [read_of_unfinished hrun hresult, read_of_unfinished hrun' hresult]
          exact .ending _ List.getLast?_concat List.getLast?_concat

end ParseState

/-! ### Parsing texts with white space -/

def SyntaxFault.toError (fault : SyntaxFault) (text : String) : EvaluationError :=
  .invalidSyntax fault.detail text (some fault.position)

namespace Formula

theorem parse_eq_mapError {text : String} (hblank : ∃ c ∈ text.toList, Text.isBlank c = false) :
    parse text = (ofScan (Token.scan text)).mapError fun fault => fault.toError text := by
  have hnot : ¬ text.toList.all Text.isBlank = true := by simpa using hblank
  rw [parse_eq, if_neg hnot]
  cases ofScan (Token.scan text) with
  | ok f => rfl
  | error fault => rfl

private theorem exists_isBlank_eq_false_text {xs : List SpacedToken} (hne : xs ≠ [])
    (after : Text.Blanks) :
    ∃ c ∈ (SpacedToken.text xs after).toList, Text.isBlank c = false := by
  obtain ⟨x, hx⟩ := List.exists_mem_of_ne_nil xs hne
  obtain ⟨c, hmem⟩ := List.exists_mem_of_ne_nil _ x.token.spelling_ne_nil
  have hc := Token.lexicon_solid (x.token.spelling, x.token) (Token.mem_lexicon.mpr rfl) c hmem
  refine ⟨c, ?_, hc⟩
  rw [SpacedToken.text, String.toList_ofList]
  exact List.mem_append_left _ (List.mem_flatMap.mpr ⟨x, hx, List.mem_append_right _ hmem⟩)

/-- Tokens that are written with any white space are found where they were written. Two texts with
the same tokens are parsed to the same formula, or they fail at the same token or both at the end,
and list the same tokens that would have fitted. -/
theorem parse_spaced (xs : List SpacedToken) (after : Text.Blanks) :
    Token.scan (SpacedToken.text xs after) = ⟨SpacedToken.places 0 xs, none⟩ ∧
    ∀ (ys : List SpacedToken) (after' : Text.Blanks), xs ≠ [] →
      xs.map SpacedToken.token = ys.map SpacedToken.token →
        ∃ r r', SameReading (SpacedToken.places 0 xs) (SpacedToken.places 0 ys) r r' ∧
          parse (SpacedToken.text xs after) =
            r.mapError (fun fault => fault.toError (SpacedToken.text xs after)) ∧
          parse (SpacedToken.text ys after') =
            r'.mapError fun fault => fault.toError (SpacedToken.text ys after') := by
  refine ⟨SpacedToken.scan_text xs after, ?_⟩
  intro ys after' hne htokens
  have hne' : ys ≠ [] := by
    rintro rfl
    exact hne (List.map_eq_nil_iff.mp htokens)
  have hplaces : SpacedToken.places 0 xs ≠ [] := by
    intro hnil
    have hmap := SpacedToken.map_token_places 0 xs
    rw [hnil] at hmap
    exact hne (List.map_eq_nil_iff.mp hmap.symm)
  rw [parse_eq_mapError (exists_isBlank_eq_false_text hne after),
    parse_eq_mapError (exists_isBlank_eq_false_text hne' after'), SpacedToken.scan_text,
    SpacedToken.scan_text]
  refine ⟨_, _, ?_, rfl, rfl⟩
  apply ParseState.sameReading_read
  · rw [SpacedToken.map_token_places, SpacedToken.map_token_places, htokens]
  · exact hplaces

/-- The same tokens are written without and with white space, and the same one of them does not fit. -/
theorem parse_spaced_apart :
    ∃ xs ys : List SpacedToken, xs ≠ [] ∧
      xs.map SpacedToken.token = ys.map SpacedToken.token ∧
      SpacedToken.text xs ⟨[], by decide⟩ = "notpq" ∧
      SpacedToken.text ys ⟨['\n'], by decide⟩ = "\u3000not p\u00a0q\n" ∧
      Token.scan "\u3000not p\u00a0q\n" =
        ⟨[⟨.not, 3, 6⟩, ⟨.atom .p, 7, 8⟩, ⟨.atom .q, 10, 11⟩], none⟩ ∧
      ∃ r r', SameReading (SpacedToken.places 0 xs) (SpacedToken.places 0 ys) r r' ∧
        parse "notpq" = r.mapError (fun fault => fault.toError "notpq") ∧
        parse "\u3000not p\u00a0q\n" =
          r'.mapError fun fault => fault.toError "\u3000not p\u00a0q\n" := by
  obtain ⟨xs, hxs⟩ : ∃ xs : List SpacedToken,
      xs = [⟨⟨[], by decide⟩, .not⟩, ⟨⟨[], by decide⟩, .atom .p⟩, ⟨⟨[], by decide⟩, .atom .q⟩] :=
    ⟨_, rfl⟩
  obtain ⟨ys, hys⟩ : ∃ ys : List SpacedToken,
      ys = [⟨⟨['\u3000'], by decide⟩, .not⟩, ⟨⟨[' '], by decide⟩, .atom .p⟩,
        ⟨⟨['\u00a0'], by decide⟩, .atom .q⟩] := ⟨_, rfl⟩
  have hne : xs ≠ [] := by simp [hxs]
  have htokens : xs.map SpacedToken.token = ys.map SpacedToken.token := by simp [hxs, hys]
  have htext : SpacedToken.text xs ⟨[], by decide⟩ = "notpq" := by
    rw [hxs]
    decide
  have htext' : SpacedToken.text ys ⟨['\n'], by decide⟩ = "\u3000not p\u00a0q\n" := by
    rw [hys]
    decide
  have hplaces : SpacedToken.places 0 ys =
      [⟨.not, 3, 6⟩, ⟨.atom .p, 7, 8⟩, ⟨.atom .q, 10, 11⟩] := by
    rw [hys]
    decide
  have hscan := (parse_spaced ys ⟨['\n'], by decide⟩).1
  rw [htext', hplaces] at hscan
  refine ⟨xs, ys, hne, htokens, htext, htext', hscan, ?_⟩
  rw [← htext, ← htext']
  exact (parse_spaced xs ⟨[], by decide⟩).2 ys ⟨['\n'], by decide⟩ hne htokens

end Formula

/-! ### White space around a text -/

/-- The fault of the same text `k` bytes later. -/
def SyntaxFault.shift (k : Nat) : SyntaxFault → SyntaxFault
  | .invalidToken offset => .invalidToken (offset + k)
  | .unrecognizedToken found expected => .unrecognizedToken (found.shift k) expected
  | .unrecognizedEnd offset expected => .unrecognizedEnd (offset + k) expected

@[simp] theorem SyntaxFault.position_shift (k : Nat) (fault : SyntaxFault) :
    (fault.shift k).position = fault.position + k := by
  cases fault <;> rfl

private theorem ParseState.read_shift (k : Nat) (s : ParseState) (stop : Nat)
    (lexemes : List (Text.Lexeme Token)) (stuckAt? : Option Nat) :
    s.read (stop + k) (lexemes.map (Text.Lexeme.shift k)) (stuckAt?.map (· + k)) =
      (s.read stop lexemes stuckAt?).mapError (SyntaxFault.shift k) := by
  induction lexemes generalizing s stop with
  | nil =>
      cases stuckAt? with
      | some offset => rfl
      | none =>
          simp only [List.map_nil, Option.map_none, read]
          cases s.result? <;> rfl
  | cons l rest ih =>
      have htoken : (l.shift k).token = l.token := rfl
      rw [List.map_cons, read, read, htoken]
      cases s.step? l.token with
      | none => rfl
      | some s' => exact ih s' l.stop

namespace Formula

/-- The end of a text is not looked at where a fault is found, so a text that is not blank may begin
anywhere. -/
theorem ofScan_shift (k : Nat) {scan : Text.Scan Token}
    (hne : scan.stuckAt? = none → scan.lexemes ≠ []) :
    ofScan (scan.shift k) = (ofScan scan).mapError (SyntaxFault.shift k) := by
  obtain ⟨lexemes, stuckAt?⟩ := scan
  cases lexemes with
  | nil =>
      cases stuckAt? with
      | none => exact absurd rfl (hne rfl)
      | some offset => rfl
  | cons l rest => exact ParseState.read_shift k ParseState.start 0 (l :: rest) stuckAt?

end Formula

end PropLogic
