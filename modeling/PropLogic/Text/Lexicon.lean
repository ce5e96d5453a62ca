import PropLogic.Text.Blank

/-!
# Longest-match tokens

A lexicon lists the spellings of the tokens of a notation. `scan` cuts a text into tokens: white
space is skipped, and from every other place the longest spelling that fits is taken. Offsets count
the bytes of the UTF-8 form.
-/

namespace PropLogic.Text

/-- The number of bytes of a text in UTF-8. -/
def byteLength : List Char → Nat
  | [] => 0
  | c :: cs => c.utf8Size + byteLength cs

@[simp] theorem byteLength_nil : byteLength [] = 0 := rfl

@[simp] theorem byteLength_cons (c : Char) (cs : List Char) :
    byteLength (c :: cs) = c.utf8Size + byteLength cs := rfl

@[simp] theorem byteLength_append (cs ds : List Char) :
    byteLength (cs ++ ds) = byteLength cs + byteLength ds := by
  induction cs with
  | nil => simp
  | cons c cs ih => simp [ih, Nat.add_assoc]

/-- The tokens of a notation with their spellings. No spelling is empty. -/
abbrev Lexicon (α : Type) := List (List Char × α)

structure Lexeme (α : Type) where
  token : α
  start : Nat
  stop : Nat
  deriving DecidableEq, Repr

/-- The tokens of a text, up to its end or to the first place where no spelling fits. -/
structure Scan (α : Type) where
  lexemes : List (Lexeme α)
  stuckAt? : Option Nat
  deriving DecidableEq, Repr

namespace Lexicon

variable {α : Type}

/-- The longer of two matches, the first of two that are equally long. -/
def longer : Option (List Char × α) → Option (List Char × α) → Option (List Char × α)
  | none, m => m
  | m, none => m
  | some e, some e' => if e.1.length < e'.1.length then some e' else some e

/-- The longest spelling at the beginning of `cs`, with its token. -/
def longest? (lexicon : Lexicon α) (cs : List Char) : Option (List Char × α) :=
  match lexicon with
  | [] => none
  | e :: rest =>
      longer (if e.1.isPrefixOf cs then some e else none) (Lexicon.longest? rest cs)

/-- The tokens of `cs` after its first `skip` characters, which belong to a token that is already
taken; what follows them begins at byte `offset`. -/
def scanAfter (lexicon : Lexicon α) (skip offset : Nat) : List Char → Scan α
  | [] => ⟨[], none⟩
  | c :: rest =>
      match skip with
      | k + 1 => lexicon.scanAfter k offset rest
      | 0 =>
          if isBlank c then
            lexicon.scanAfter 0 (offset + c.utf8Size) rest
          else
            match lexicon.longest? (c :: rest) with
            | none => ⟨[], some offset⟩
            | some (spelling, token) =>
                let stop := offset + byteLength spelling
                let next := lexicon.scanAfter (spelling.length - 1) stop rest
                ⟨⟨token, offset, stop⟩ :: next.lexemes, next.stuckAt?⟩

def scan (lexicon : Lexicon α) (offset : Nat) (cs : List Char) : Scan α :=
  lexicon.scanAfter 0 offset cs

section Scan

variable (lexicon : Lexicon α) (offset : Nat)

private theorem scanAfter_eq_scan_drop (skip : Nat) (cs : List Char) :
    lexicon.scanAfter skip offset cs = lexicon.scan offset (cs.drop skip) := by
  induction cs generalizing skip with
  | nil => simp [scan, scanAfter]
  | cons c rest ih =>
      cases skip with
      | zero => rfl
      | succ k => simpa [scanAfter] using ih k

@[simp] theorem scan_nil : lexicon.scan offset [] = ⟨[], none⟩ := rfl

theorem scan_cons_of_isBlank {c : Char} (h : isBlank c = true) (rest : List Char) :
    lexicon.scan offset (c :: rest) = lexicon.scan (offset + c.utf8Size) rest := by
  simp [scan, scanAfter, h]

theorem scan_of_longest?_eq_none {c : Char} {rest : List Char} (hc : isBlank c = false)
    (h : lexicon.longest? (c :: rest) = none) :
    lexicon.scan offset (c :: rest) = ⟨[], some offset⟩ := by
  simp [scan, scanAfter, hc, h]

theorem scan_of_longest?_eq_some {c : Char} {rest spelling : List Char} {token : α}
    (hc : isBlank c = false) (h : lexicon.longest? (c :: rest) = some (spelling, token)) :
    lexicon.scan offset (c :: rest) =
      let stop := offset + byteLength spelling
      let next := lexicon.scan stop (rest.drop (spelling.length - 1))
      ⟨⟨token, offset, stop⟩ :: next.lexemes, next.stuckAt?⟩ := by
  simp only [← scanAfter_eq_scan_drop]
  simp [scan, scanAfter, hc, h]

end Scan

end Lexicon

end PropLogic.Text
