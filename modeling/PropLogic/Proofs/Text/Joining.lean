import PropLogic.Proofs.Text.Replacing
import PropLogic.Proofs.Text.Scanning

/-!
# Scans of joined texts

No spelling contains white space, so a text with white space somewhere has the lexemes of the part
before it and those of the part behind it. The offsets of the second part count the bytes of the
first one. A place of the first part where no token begins is found again, and nothing behind it is
looked at.
-/

namespace PropLogic.Text

variable {α : Type}

/-- The lexeme as it stands `k` bytes later. -/
def Lexeme.shift (k : Nat) (l : Lexeme α) : Lexeme α := ⟨l.token, l.start + k, l.stop + k⟩

namespace Scan

def shift (k : Nat) (s : Scan α) : Scan α :=
  ⟨s.lexemes.map (Lexeme.shift k), s.stuckAt?.map (· + k)⟩

/-- The lexemes of two scans, one after the other, unless the first scan is stuck. -/
def append (s s' : Scan α) : Scan α :=
  match s.stuckAt? with
  | some offset => ⟨s.lexemes, some offset⟩
  | none => ⟨s.lexemes ++ s'.lexemes, s'.stuckAt?⟩

instance : Append (Scan α) := ⟨append⟩

@[simp] theorem nil_append (s : Scan α) : ⟨[], none⟩ ++ s = s := rfl

@[simp] theorem append_nil (s : Scan α) : s ++ ⟨[], none⟩ = s := by
  obtain ⟨lexemes, _ | offset⟩ := s
  · change (⟨lexemes ++ [], none⟩ : Scan α) = _
    rw [List.append_nil]
  · rfl

theorem append_assoc (s s' s'' : Scan α) : s ++ s' ++ s'' = s ++ (s' ++ s'') := by
  obtain ⟨lexemes, _ | offset⟩ := s
  · obtain ⟨lexemes', _ | offset'⟩ := s'
    · change (⟨lexemes ++ lexemes' ++ s''.lexemes, s''.stuckAt?⟩ : Scan α) = _
      rw [List.append_assoc]
      rfl
    · rfl
  · rfl

theorem cons_append (l : Lexeme α) (s s' : Scan α) :
    ⟨l :: s.lexemes, s.stuckAt?⟩ ++ s' = ⟨l :: (s ++ s').lexemes, (s ++ s').stuckAt?⟩ := by
  obtain ⟨lexemes, _ | offset⟩ := s <;> rfl

end Scan

namespace Lexicon

variable {lexicon : Lexicon α}

/-! ### Offsets -/

theorem Lexes.shift {offset : Nat} {cs : List Char} {s : Scan α} (h : lexicon.Lexes offset cs s)
    (k : Nat) : lexicon.Lexes (offset + k) cs (s.shift k) := by
  induction h with
  | ending => exact .ending
  | stuck hc hnone => exact .stuck hc hnone
  | blank hc _ ih =>
      rw [Nat.add_right_comm] at ih
      exact .blank hc ih
  | token hw _ ih =>
      rw [Nat.add_right_comm] at ih
      have htoken := Lexes.token hw ih
      rw [Nat.add_right_comm] at htoken
      exact htoken

theorem scan_add (hr : lexicon.Regular) (offset k : Nat) (cs : List Char) :
    lexicon.scan (offset + k) cs = (lexicon.scan offset cs).shift k :=
  (((lexes_scan hr offset cs).shift k).eq_scan hr).symm

/-! ### White space between two texts -/

/-- No spelling contains white space. -/
def Solid (lexicon : Lexicon α) : Prop := ∀ e ∈ lexicon, ∀ c ∈ e.1, isBlank c = false

theorem Solid.not_mem (hsolid : lexicon.Solid) {e : List Char × α} (he : e ∈ lexicon) {c : Char}
    (hc : isBlank c = true) : c ∉ e.1 := by
  intro hmem
  rw [hsolid e he c hmem] at hc
  cases hc

theorem IsLongest.append_cons (hsolid : lexicon.Solid) {e : List Char × α} {cs : List Char}
    (h : lexicon.IsLongest e cs) {c : Char} (hc : isBlank c = true) (ds : List Char) :
    lexicon.IsLongest e (cs ++ c :: ds) := by
  refine ⟨h.mem, h.fits.trans (List.prefix_append _ _), ?_⟩
  intro e' he' hfits
  exact h.length_le e' he' (fits_of_fits_append_cons (hsolid.not_mem he' hc) hfits)

theorem Lexes.append (hsolid : lexicon.Solid) {offset : Nat} {cs ds : List Char} {c : Char}
    {s s' : Scan α} (hc : isBlank c = true) (h : lexicon.Lexes offset cs s)
    (h' : lexicon.Lexes (offset + byteLength cs) (c :: ds) s') :
    lexicon.Lexes offset (cs ++ c :: ds) (s ++ s') := by
  induction h with
  | ending => exact h'
  | @stuck offset d rest hd hnone =>
      refine .stuck hd fun e he hfits => hnone e he ?_
      exact fits_of_fits_append_cons (w := d :: rest) (hsolid.not_mem he hc) hfits
  | blank hd _ ih =>
      rw [byteLength_cons, ← Nat.add_assoc] at h'
      exact .blank hd (ih h')
  | @token offset w rest t s hw _ ih =>
      rw [byteLength_append, ← Nat.add_assoc] at h'
      have hlongest := hw.append_cons hsolid hc ds
      rw [List.append_assoc] at hlongest ⊢
      rw [Scan.cons_append]
      exact .token hlongest (ih h')

/-- A text that goes on with white space is scanned like its two parts. -/
theorem scan_append_cons (hr : lexicon.Regular) (hsolid : lexicon.Solid) (offset : Nat)
    (cs : List Char) {c : Char} (hc : isBlank c = true) (ds : List Char) :
    lexicon.scan offset (cs ++ c :: ds) =
      lexicon.scan offset cs ++ lexicon.scan (offset + byteLength cs) (c :: ds) :=
  (((lexes_scan hr offset cs).append hsolid hc (lexes_scan hr _ _)).eq_scan hr).symm

/-! ### White space around a text -/

theorem scan_blank_append (offset : Nat) {u : List Char} (hu : ∀ c ∈ u, isBlank c = true)
    (cs : List Char) : lexicon.scan offset (u ++ cs) = lexicon.scan (offset + byteLength u) cs := by
  induction u generalizing offset with
  | nil => rfl
  | cons c u ih =>
      rw [List.cons_append, scan_cons_of_isBlank lexicon offset (hu c List.mem_cons_self),
        ih _ fun d hd => hu d (List.mem_cons_of_mem _ hd), byteLength_cons, Nat.add_assoc]

theorem scan_blank (offset : Nat) {w : List Char} (hw : ∀ c ∈ w, isBlank c = true) :
    lexicon.scan offset w = ⟨[], none⟩ := by
  rw [← List.append_nil w, scan_blank_append offset hw, scan_nil]

theorem scan_append_blank (hr : lexicon.Regular) (hsolid : lexicon.Solid) (offset : Nat)
    (cs : List Char) {w : List Char} (hw : ∀ c ∈ w, isBlank c = true) :
    lexicon.scan offset (cs ++ w) = lexicon.scan offset cs := by
  cases w with
  | nil => rw [List.append_nil]
  | cons c w =>
      rw [scan_append_cons hr hsolid offset cs (hw c List.mem_cons_self), scan_blank _ hw,
        Scan.append_nil]

end Lexicon

end PropLogic.Text
