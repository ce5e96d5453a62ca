import Mathlib.Data.List.Basic
import PropLogic.Text.Quoted

/-!
# Quotations are read in one way

No escape is the beginning of another one, so a text is recovered from its escapes. Between the
quote signs around a quotation every quote sign stands right behind a backslash. Hence the place
where a quotation begins can be told from its end, whatever stands before it.
-/

namespace PropLogic.Text

/-! ### Numerals -/

private theorem exists_digitChar_of_mem_toDigits {b : Nat} (hb : 1 < b) {n : Nat} {c : Char}
    (h : c ∈ Nat.toDigits b n) : ∃ d < b, c = Nat.digitChar d := by
  induction n using Nat.strongRecOn with
  | ind n ih =>
      rw [Nat.toDigits_eq_if hb] at h
      split at h
      next hn => exact ⟨n, hn, List.mem_singleton.mp h⟩
      next hn =>
        rcases List.mem_append.mp h with hfront | hlast
        · have hless : n / b < n := Nat.div_lt_self (by omega) hb
          exact ih _ hless hfront
        · exact ⟨n % b, Nat.mod_lt n (by omega), List.mem_singleton.mp hlast⟩

private theorem digitChar_injective {m n : Nat} (hm : m < 16) (hn : n < 16)
    (h : Nat.digitChar m = Nat.digitChar n) : m = n := by
  have hall : ∀ m < 16, ∀ n < 16, Nat.digitChar m = Nat.digitChar n → m = n := by decide
  exact hall m hm n hn h

private theorem toDigits_injective {b : Nat} (hb : 1 < b) (hdigits : b ≤ 16) {m n : Nat}
    (h : Nat.toDigits b m = Nat.toDigits b n) : m = n := by
  induction m using Nat.strongRecOn generalizing n with
  | ind m ih =>
      have hsmall (k : Nat) : (Nat.toDigits b k).length ≤ 1 ↔ k < b := by
        rw [Nat.length_toDigits_le_iff hb Nat.one_pos, Nat.pow_one]
      have hboth : m < b ↔ n < b := by rw [← hsmall m, h, hsmall n]
      by_cases hless : m < b
      · have hless' : n < b := hboth.mp hless
        rw [Nat.toDigits_of_lt_base hless, Nat.toDigits_of_lt_base hless'] at h
        exact digitChar_injective (by omega) (by omega) (List.cons.inj h).1
      · have hless' : ¬ n < b := fun hn => hless (hboth.mpr hn)
        rw [Nat.toDigits_of_base_le hb (Nat.le_of_not_lt hless),
          Nat.toDigits_of_base_le hb (Nat.le_of_not_lt hless')] at h
        obtain ⟨hfront, hlast⟩ := List.append_inj' h rfl
        have hquotient : m / b = n / b := ih _ (Nat.div_lt_self (by omega) hb) hfront
        have hremainder : m % b = n % b := by
          have hlt : m % b < b := Nat.mod_lt m (by omega)
          have hlt' : n % b < b := Nat.mod_lt n (by omega)
          exact digitChar_injective (by omega) (by omega) (List.cons.inj hlast).1
        rw [← Nat.div_add_mod m b, ← Nat.div_add_mod n b, hquotient, hremainder]

theorem toDigits_append_cons_inj {b : Nat} (hb : 1 < b) (hdigits : b ≤ 16) {c : Char}
    (hc : ∀ d < 16, c ≠ Nat.digitChar d) {m n : Nat} {u v : List Char}
    (h : Nat.toDigits b m ++ c :: u = Nat.toDigits b n ++ c :: v) : m = n ∧ u = v := by
  have hnot (k : Nat) : c ∉ Nat.toDigits b k := by
    intro hmem
    obtain ⟨d, hd, hdigit⟩ := exists_digitChar_of_mem_toDigits hb hmem
    exact hc d (by omega) hdigit
  have hlength : (Nat.toDigits b m).length = (Nat.toDigits b n).length := by
    have hplace := congrArg (List.idxOf c) h
    rwa [List.idxOf_append_of_notMem (hnot m), List.idxOf_append_of_notMem (hnot n),
      List.idxOf_cons_self, List.idxOf_cons_self] at hplace
  obtain ⟨hnumeral, hrest⟩ := List.append_inj h hlength
  exact ⟨toDigits_injective hb hdigits hnumeral, (List.cons.inj hrest).2⟩

/-! ### Escapes -/

/-- The characters whose escapes have a short name. -/
def shortNames : List (Char × Char) :=
  [('\x00', '0'), ('\t', 't'), ('\n', 'n'), ('\r', 'r'), ('"', '"'), ('\\', '\\')]

/-- The ways to write a character inside quotes. -/
inductive Escaped : Char → List Char → Prop
  | itself {c : Char} (hquote : c ≠ '"') (hbackslash : c ≠ '\\') : Escaped c [c]
  | named {c : Char} (name : Char) (h : (c, name) ∈ shortNames) : Escaped c ['\\', name]
  | codePoint (c : Char) : Escaped c (codePointEscape c)

private theorem escaped_escape (c : Char) : Escaped c (escape c) := by
  unfold escape
  split
  case h_7 hquote hbackslash =>
    split
    · exact .codePoint c
    · exact .itself hquote hbackslash
  all_goals exact .named _ (by decide)

private theorem codePointEscape_append (c : Char) (u : List Char) :
    codePointEscape c ++ u =
      '\\' :: 'u' :: '\x7b' :: (Nat.toDigits 16 c.toNat ++ '\x7d' :: u) := by
  simp [codePointEscape]

private theorem name_ne_u {c name : Char} (h : (c, name) ∈ shortNames) : name ≠ 'u' := by
  have hall : ∀ e ∈ shortNames, e.2 ≠ 'u' := by decide
  exact hall _ h

private theorem eq_of_mem_shortNames {c d name : Char} (hc : (c, name) ∈ shortNames)
    (hd : (d, name) ∈ shortNames) : c = d := by
  have hall : ∀ e ∈ shortNames, ∀ e' ∈ shortNames, e.2 = e'.2 → e.1 = e'.1 := by decide
  exact hall _ hc _ hd rfl

private theorem Escaped.ne_nil {c : Char} {w : List Char} (h : Escaped c w) : w ≠ [] := by
  cases h <;> simp [codePointEscape]

/-- No escape is the beginning of another one. -/
private theorem Escaped.append_inj {c d : Char} {w w' u v : List Char} (hc : Escaped c w)
    (hd : Escaped d w') (h : w ++ u = w' ++ v) : c = d ∧ u = v := by
  cases hc with
  | itself _ hbackslash =>
      cases hd with
      | itself => exact List.cons.inj h
      | named => exact absurd (List.cons.inj h).1 hbackslash
      | codePoint =>
          rw [codePointEscape_append] at h
          exact absurd (List.cons.inj h).1 hbackslash
  | named name hname =>
      cases hd with
      | itself _ hbackslash => exact absurd (List.cons.inj h).1.symm hbackslash
      | named _ hname' =>
          simp only [List.cons_append, List.nil_append, List.cons.injEq, true_and] at h
          obtain ⟨rfl, hrest⟩ := h
          exact ⟨eq_of_mem_shortNames hname hname', hrest⟩
      | codePoint =>
          rw [codePointEscape_append] at h
          obtain ⟨-, hrest⟩ := List.cons.inj h
          exact absurd (List.cons.inj hrest).1 (name_ne_u hname)
  | codePoint =>
      rw [codePointEscape_append] at h
      cases hd with
      | itself _ hbackslash => exact absurd (List.cons.inj h).1.symm hbackslash
      | named name hname =>
          obtain ⟨-, hrest⟩ := List.cons.inj h
          exact absurd (List.cons.inj hrest).1.symm (name_ne_u hname)
      | codePoint =>
          rw [codePointEscape_append] at h
          simp only [List.cons.injEq, true_and] at h
          obtain ⟨hcode, hrest⟩ :=
            toDigits_append_cons_inj (by decide) (Nat.le_refl 16) (by decide) h
          exact ⟨Char.toNat_inj.mp hcode, hrest⟩

theorem flatMap_escape_injective {cs ds : List Char} (h : cs.flatMap escape = ds.flatMap escape) :
    cs = ds := by
  have hne (c : Char) : escape c ≠ [] := (escaped_escape c).ne_nil
  induction cs generalizing ds with
  | nil =>
      cases ds with
      | nil => rfl
      | cons d ds => simp [hne d] at h
  | cons c cs ih =>
      cases ds with
      | nil => simp [hne c] at h
      | cons d ds =>
          rw [List.flatMap_cons, List.flatMap_cons] at h
          obtain ⟨rfl, hrest⟩ := (escaped_escape c).append_inj (escaped_escape d) h
          rw [ih hrest]

/-! ### Quote signs -/

/-- Every quote sign stands right behind a backslash. -/
inductive Guarded : List Char → Prop
  | nil : Guarded []
  | plain {c : Char} {cs : List Char} (hc : c ≠ '"') (h : Guarded cs) : Guarded (c :: cs)
  | quote {cs : List Char} (h : Guarded cs) : Guarded ('\\' :: '"' :: cs)

namespace Guarded

private theorem append {cs ds : List Char} (h : Guarded cs) (h' : Guarded ds) : Guarded (cs ++ ds) := by
  induction h with
  | nil => exact h'
  | plain hc _ ih => exact .plain hc ih
  | quote _ ih => exact .quote ih

private theorem of_not_mem {cs : List Char} (h : '"' ∉ cs) : Guarded cs := by
  induction cs with
  | nil => exact .nil
  | cons c cs ih =>
      rw [List.mem_cons, not_or] at h
      exact .plain (Ne.symm h.1) (ih h.2)

private theorem ne_append {cs : List Char} (h : Guarded cs) (u v : List Char) :
    cs ≠ u ++ ' ' :: '"' :: v := by
  intro heq
  induction h generalizing u with
  | nil => simp at heq
  | @plain c cs hc h ih =>
      cases u with
      | nil =>
          obtain ⟨-, rfl⟩ := List.cons.inj heq
          cases h with
          | plain hquote => exact hquote rfl
      | cons d u => exact ih u (List.cons.inj heq).2
  | @quote cs _ ih =>
      rcases u with _ | ⟨d, _ | ⟨e, u⟩⟩
      · simp at heq
      · simp at heq
      · simp only [List.cons_append, List.cons.injEq] at heq
        exact ih u heq.2.2

private theorem eq_nil_of_cons_eq {cs w ds : List Char} (h : Guarded cs)
    (heq : ' ' :: '"' :: cs = w ++ ' ' :: '"' :: ds) : w = [] := by
  rcases w with _ | ⟨c, _ | ⟨d, u⟩⟩
  · rfl
  · simp at heq
  · simp only [List.cons_append, List.cons.injEq] at heq
    exact absurd heq.2.2 (h.ne_append u ds)

end Guarded

private theorem Escaped.guarded {c : Char} {w : List Char} (h : Escaped c w) : Guarded w := by
  cases h with
  | itself hquote => exact .plain hquote .nil
  | named name =>
      by_cases hname : name = '"'
      · subst hname
        exact .quote .nil
      · exact .plain (by decide) (.plain hname .nil)
  | codePoint =>
      have hdigits : ∀ d < 16, '"' ≠ Nat.digitChar d := by decide
      apply Guarded.of_not_mem
      intro hmem
      simp only [codePointEscape, List.cons_append, List.nil_append, List.mem_cons, List.mem_append,
        List.not_mem_nil, or_false, Char.reduceEq, false_or] at hmem
      obtain ⟨d, hd, hdigit⟩ := exists_digitChar_of_mem_toDigits (by decide) hmem
      exact hdigits d hd hdigit

private theorem guarded_flatMap_escape (cs : List Char) : Guarded (cs.flatMap escape) := by
  induction cs with
  | nil => exact .nil
  | cons c cs ih =>
      rw [List.flatMap_cons]
      exact (escaped_escape c).guarded.append ih

/-- The place of a quotation behind a space is found from its end, whatever stands before it. -/
theorem append_quotedChars_inj {u v cs ds : List Char}
    (h : u ++ ' ' :: quotedChars cs = v ++ ' ' :: quotedChars ds) : u = v ∧ cs = ds := by
  have hopen : u ++ ' ' :: '"' :: cs.flatMap escape = v ++ ' ' :: '"' :: ds.flatMap escape := by
    apply (List.append_left_inj ['"']).mp
    simpa [quotedChars] using h
  obtain ⟨w, rfl, hrest⟩ | ⟨w, rfl, hrest⟩ := List.append_eq_append_iff.mp hopen
  · obtain rfl := (guarded_flatMap_escape cs).eq_nil_of_cons_eq hrest
    simp only [List.nil_append, List.cons.injEq, true_and] at hrest
    exact ⟨(List.append_nil u).symm, flatMap_escape_injective hrest⟩
  · obtain rfl := (guarded_flatMap_escape ds).eq_nil_of_cons_eq hrest
    simp only [List.nil_append, List.cons.injEq, true_and] at hrest
    exact ⟨List.append_nil v, (flatMap_escape_injective hrest).symm⟩

theorem quoted_injective {s t : String} (h : quoted s = quoted t) : s = t := by
  rw [quoted, quoted, String.ofList_inj] at h
  have hspace : ' ' :: quotedChars s.toList = ' ' :: quotedChars t.toList := by rw [h]
  exact String.toList_inj.mp (append_quotedChars_inj (u := []) (v := []) hspace).2

end PropLogic.Text
