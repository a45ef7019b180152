import SarkariWorld.Lib.Text

/-!
# Substitution of a fixed-width pattern

A pattern is a sequence of character classes, which covers `str.replace` (each
class is one character) and the regular expressions without repetition. A
replacement goes through the text once from the left: a match is replaced and
skipped, any other character is copied, so matches never overlap and the
inserted text is not searched again.

What a proof about marked-up text needs is where a replacement can *not* reach:
a stretch without a match that ends in a character no class contains (`Seals`)
is copied as it stands, and one with a match is cut at its first match.
-/

namespace SarkariWorld.Lib

/-- A pattern of a fixed width: what each of its characters may be. -/
abbrev Pattern := List (Char → Bool)

/-- The pattern that matches one string only. -/
def literal (t : Text) : Pattern := t.map fun c d => d == c

/-- The pattern matches at the start of the text. -/
def matchesAt : Pattern → Text → Bool
  | [], _ => true
  | _ :: _, [] => false
  | p :: ps, c :: cs => p c && matchesAt ps cs

/-- The pattern matches somewhere in the text. -/
def occurs (pat : Pattern) : Text → Bool
  | [] => false
  | c :: cs => matchesAt pat (c :: cs) || occurs pat cs

/-- One pass over the text, with `skip` characters of the last match still to
pass over. -/
def replaceFrom (pat : Pattern) (repl : Text) : Nat → Text → Text
  | _, [] => []
  | skip + 1, _ :: cs => replaceFrom pat repl skip cs
  | 0, c :: cs =>
    if matchesAt pat (c :: cs) then repl ++ replaceFrom pat repl (pat.length - 1) cs
    else c :: replaceFrom pat repl 0 cs

/-- `t.replace(old, new)`, and `pattern.sub(new, t)` where `new` has no group
references. -/
def replaceAll (pat : Pattern) (repl t : Text) : Text := replaceFrom pat repl 0 t

/-- A character that ends every match in progress. -/
def Seals (pat : Pattern) (q : Char) : Prop := pat ≠ [] ∧ ∀ p ∈ pat, p q = false

variable {pat : Pattern} {repl : Text}

theorem replaceFrom_eq_drop (skip : Nat) (t : Text) :
    replaceFrom pat repl skip t = replaceAll pat repl (t.drop skip) := by
  induction t generalizing skip with
  | nil => cases skip <;> rfl
  | cons c cs ih =>
    cases skip with
    | zero => rfl
    | succ k => exact ih k

@[simp] theorem replaceAll_nil : replaceAll pat repl [] = [] := rfl

/-- Where nothing matches, the character is copied. -/
theorem replaceAll_miss {c : Char} {cs : Text} (h : matchesAt pat (c :: cs) = false) :
    replaceAll pat repl (c :: cs) = c :: replaceAll pat repl cs := by
  show (if matchesAt pat (c :: cs) then _ else _) = _
  rw [h]
  rfl

/-- Where the pattern matches, the match is replaced and the pass goes on behind
it. -/
theorem replaceAll_hit {t : Text} (hpat : pat ≠ []) (h : matchesAt pat t = true) :
    replaceAll pat repl t = repl ++ replaceAll pat repl (t.drop pat.length) := by
  obtain ⟨p, ps, rfl⟩ := List.exists_cons_of_ne_nil hpat
  cases t with
  | nil => exact absurd h (by simp [matchesAt])
  | cons c cs =>
    show (if matchesAt (p :: ps) (c :: cs) then _ else _) = _
    rw [h, if_pos rfl, replaceFrom_eq_drop]
    rfl

/-- A match is as long as its pattern. -/
theorem length_le_of_matchesAt {t : Text} (h : matchesAt pat t = true) :
    pat.length ≤ t.length := by
  induction pat generalizing t with
  | nil => exact Nat.zero_le _
  | cons p ps ih =>
    cases t with
    | nil => exact absurd h (by simp [matchesAt])
    | cons c cs =>
      have hps : matchesAt ps cs = true := (Bool.and_eq_true_iff.mp h).2
      exact Nat.succ_le_succ (ih hps)

/-- A match never crosses a sealing character. -/
theorem matchesAt_seal {q : Char} (hq : ∀ p ∈ pat, p q = false) (t rest : Text) :
    matchesAt pat (t ++ q :: rest) = matchesAt pat t := by
  induction pat generalizing t with
  | nil => cases t <;> rfl
  | cons p ps ih =>
    cases t with
    | nil => simp [matchesAt, hq p List.mem_cons_self]
    | cons c cs =>
      simp only [List.cons_append, matchesAt]
      rw [ih (fun p' hp' => hq p' (List.mem_cons_of_mem _ hp'))]

/-- A replacement writes nothing but what it replaces by and what was there. -/
theorem mem_replaceFrom {c : Char} {skip : Nat} {t : Text} (h : c ∈ replaceFrom pat repl skip t) :
    c ∈ repl ∨ c ∈ t := by
  induction t generalizing skip with
  | nil => cases skip <;> cases h
  | cons d ds ih =>
    cases skip with
    | succ skip => exact (ih h).imp_right (List.mem_cons_of_mem d)
    | zero =>
      unfold replaceFrom at h
      split at h
      next =>
        obtain h | h := List.mem_append.mp h
        · exact Or.inl h
        · exact (ih h).imp_right (List.mem_cons_of_mem d)
      next =>
        obtain rfl | h := List.mem_cons.mp h
        · exact Or.inr List.mem_cons_self
        · exact (ih h).imp_right (List.mem_cons_of_mem d)

/-- A stretch in which nothing matches is copied. -/
theorem replaceAll_append_of_miss {v rest : Text}
    (h : ∀ c t, (c :: t) <:+ v → matchesAt pat (c :: (t ++ rest)) = false) :
    replaceAll pat repl (v ++ rest) = v ++ replaceAll pat repl rest := by
  induction v with
  | nil => rfl
  | cons c cs ih =>
    have hmiss : matchesAt pat (c :: (cs ++ rest)) = false := h c cs List.suffix_rfl
    have hcs := ih fun d t ht => h d t (ht.trans (List.suffix_cons c cs))
    rw [List.cons_append, replaceAll_miss hmiss, hcs, List.cons_append]

/-- A character the pattern cannot start with is copied. -/
theorem replaceAll_append_of_first {p : Char → Bool} {ps : Pattern} {v rest : Text}
    (h : ∀ c ∈ v, p c = false) :
    replaceAll (p :: ps) repl (v ++ rest) = v ++ replaceAll (p :: ps) repl rest := by
  refine replaceAll_append_of_miss fun c t ht => ?_
  show (p c && _) = false
  rw [h c (ht.subset List.mem_cons_self), Bool.false_and]

/-- A text without a match has none at any of its places. -/
theorem occurs_of_suffix {c : Char} {t v : Text} (ht : (c :: t) <:+ v) (h : occurs pat v = false) :
    matchesAt pat (c :: t) = false := by
  induction v with
  | nil => exact absurd (List.suffix_nil.mp ht) (by simp)
  | cons d ds ih =>
    obtain ⟨hd, hds⟩ := Bool.or_eq_false_iff.mp h
    rcases List.suffix_cons_iff.mp ht with heq | hsuf
    · rw [heq]
      exact hd
    · exact ih hsuf hds

/-- A text without a match stays as it is. -/
theorem replaceAll_of_not_occurs {t : Text} (h : occurs pat t = false) :
    replaceAll pat repl t = t := by
  induction t with
  | nil => rfl
  | cons c cs ih =>
    obtain ⟨hmiss, hcs⟩ := Bool.or_eq_false_iff.mp h
    rw [replaceAll_miss hmiss, ih hcs]

/-- A match behind some text is a match in all of it. -/
theorem occurs_append {v t : Text} (h : occurs pat t = true) : occurs pat (v ++ t) = true := by
  induction v with
  | nil => exact h
  | cons c cs ih => exact Bool.or_eq_true_iff.mpr (Or.inr ih)

theorem matchesAt_literal (t rest : Text) : matchesAt (literal t) (t ++ rest) = true := by
  induction t with
  | nil => rfl
  | cons c cs ih => exact Bool.and_eq_true_iff.mpr ⟨beq_self_eq_true c, ih⟩

/-- A text occurs in each text it is a part of. -/
theorem occurs_literal {w t : Text} (hw : w ≠ []) (h : w <:+: t) :
    occurs (literal w) t = true := by
  obtain ⟨before, after, rfl⟩ := h
  obtain ⟨c, cs, rfl⟩ := List.exists_cons_of_ne_nil hw
  rw [List.append_assoc]
  exact occurs_append (Bool.or_eq_true_iff.mpr (Or.inl (matchesAt_literal (c :: cs) after)))

/-- A stretch without the character a match begins with has no part in one. -/
theorem occurs_of_first {p : Char → Bool} {ps : Pattern} {v t : Text}
    (hv : ∀ c ∈ v, p c = false) (h : occurs (p :: ps) (v ++ t) = true) :
    occurs (p :: ps) t = true := by
  induction v with
  | nil => exact h
  | cons c cs ih =>
    obtain hhit | hlater := Bool.or_eq_true_iff.mp h
    · have hc : p c = true := (Bool.and_eq_true_iff.mp hhit).1
      rw [hv c List.mem_cons_self] at hc
      cases hc
    · exact ih (fun d hd => hv d (List.mem_cons_of_mem c hd)) hlater

/-- A mismatch within a text is a mismatch whatever follows the text. -/
theorem matchesAt_of_mismatch {ps : Pattern} {t : Text}
    (h : (ps.zip t).any (fun x => !x.1 x.2) = true) (rest : Text) :
    matchesAt ps (t ++ rest) = false := by
  induction ps generalizing t with
  | nil => cases h
  | cons p ps ih =>
    cases t with
    | nil => cases h
    | cons c cs =>
      show (p c && matchesAt ps (cs ++ rest)) = false
      rcases Bool.or_eq_true_iff.mp h with hfirst | hlater
      · have hp : p c = false := by simpa using hfirst
        rw [hp, Bool.false_and]
      · rw [ih hlater, Bool.and_false]

/-- A stretch without a match, up to a sealing character, is copied. -/
theorem replaceAll_sealed {q : Char} (hq : Seals pat q) {v rest : Text}
    (h : occurs pat v = false) :
    replaceAll pat repl (v ++ q :: rest) = v ++ q :: replaceAll pat repl rest := by
  have hseal : matchesAt pat (q :: rest) = false := by
    have hnil := matchesAt_seal hq.2 [] rest
    rw [List.nil_append] at hnil
    rw [hnil]
    obtain ⟨p, ps, rfl⟩ := List.exists_cons_of_ne_nil hq.1
    rfl
  rw [replaceAll_append_of_miss, replaceAll_miss hseal]
  intro c t ht
  rw [← List.cons_append, matchesAt_seal hq.2]
  exact occurs_of_suffix ht h

/-- A stretch with a match, up to a sealing character, is cut at its first
match. -/
theorem replaceAll_cut {q : Char} (hq : Seals pat q) {v : Text} (h : occurs pat v = true)
    (rest : Text) :
    ∃ before matched after, v = before ++ matched ++ after ∧
      replaceAll pat repl (v ++ q :: rest)
        = before ++ repl ++ replaceAll pat repl (after ++ q :: rest) := by
  induction v with
  | nil => exact absurd h (by simp [occurs])
  | cons c cs ih =>
    by_cases hm : matchesAt pat (c :: cs) = true
    -- a match at the front lies before the seal, so what follows does not change it
    · refine ⟨[], (c :: cs).take pat.length, (c :: cs).drop pat.length, ?_, ?_⟩
      · rw [List.nil_append, List.take_append_drop]
      · have hlen := length_le_of_matchesAt hm
        have hhit : matchesAt pat ((c :: cs) ++ q :: rest) = true := by
          rw [matchesAt_seal hq.2]
          exact hm
        rw [replaceAll_hit hq.1 hhit, List.drop_append_of_le_length hlen, List.nil_append]
    · have hmiss : matchesAt pat (c :: cs) = false := Bool.eq_false_iff.mpr hm
      have hcs : occurs pat cs = true := by
        have := h
        rw [occurs, hmiss, Bool.false_or] at this
        exact this
      obtain ⟨before, matched, after, hv, hrepl⟩ := ih hcs
      -- no match at the front, and what follows makes none
      have hmiss' : matchesAt pat (c :: (cs ++ q :: rest)) = false := by
        rw [← List.cons_append, matchesAt_seal hq.2]
        exact hmiss
      refine ⟨c :: before, matched, after, by rw [hv]; rfl, ?_⟩
      rw [List.cons_append, replaceAll_miss hmiss', hrepl]
      rfl

end SarkariWorld.Lib
