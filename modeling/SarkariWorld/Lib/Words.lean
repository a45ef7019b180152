import Mathlib.Data.List.Chain

/-!
# Words

The words of a list are its longest stretches without a separator. Putting one
separator for a run of them keeps the words (`wordsFrom_subRuns`), and a list whose
separators all stand alone is its words joined again (`Joined.intercalate_words`). So
what two passes over a list and a cut at its ends leave is known from its words alone,
and so is where a cut at a fixed length falls (`Joined.cut_iff`).

The functions here are written as loops with an accumulator, the word or the run that is
still open, because that is how a tokenizer or a substitution of runs goes over its input.
The accumulators are in the lemmas up to the point where a whole list begins with an empty
one.
-/

namespace SarkariWorld.Lib

variable {α : Type*}

/-- The word that has been read, last element first, if there is one. -/
def lastWord : List α → List (List α)
  | [] => []
  | c :: cs => [(c :: cs).reverse]

/-- The words of a list, of which `pending`, last element first, has been read before. -/
def wordsFrom (p : α → Bool) : List α → List α → List (List α)
  | pending, [] => lastWord pending
  | pending, c :: cs =>
    if p c then lastWord pending ++ wordsFrom p [] cs else wordsFrom p (c :: pending) cs

/-- The stretches of `t` between its separators, less the empty ones. -/
def words (p : α → Bool) (t : List α) : List (List α) := wordsFrom p [] t

/-- A run of `least` elements gives way to one `r`, and a shorter one stays. -/
def closeRun (least : Nat) (r : α) (run : List α) : List α :=
  if run.length < least then run else [r]

/-- `re.sub` on the longest runs of elements of the class `p`, of at least `least` of them;
`run` is what has been read of one. -/
def subRuns (p : α → Bool) (least : Nat) (r : α) : List α → List α → List α
  | run, [] => closeRun least r run
  | run, c :: cs =>
    if p c then subRuns p least r (run ++ [c]) cs
    else closeRun least r run ++ c :: subRuns p least r [] cs

/-- Separators stand alone, each of them is `r`, and there is none at an end. -/
structure Joined (p : α → Bool) (r : α) (t : List α) : Prop where
  lone : t.IsChain fun c d => p c = true → p d = false
  glue : ∀ c ∈ t, p c = true → c = r
  head : ∀ c ∈ t.head?, p c = false
  last : ∀ c ∈ t.getLast?, p c = false

/-! ## The words of a list -/

section Words

variable {p : α → Bool} {c : α} {s t pending : List α}

theorem wordsFrom_cons_pos (h : p c = true) :
    wordsFrom p pending (c :: t) = lastWord pending ++ words p t := if_pos h

theorem wordsFrom_cons_neg (h : p c = false) :
    wordsFrom p pending (c :: t) = wordsFrom p (c :: pending) t :=
  if_neg (Bool.eq_false_iff.mp h)

/-- The pending word, if there is one, is not empty and has no separator. -/
theorem mem_lastWord {w : List α} (hpending : ∀ c ∈ pending, p c = false)
    (hw : w ∈ lastWord pending) : w ≠ [] ∧ ∀ c ∈ w, p c = false := by
  cases pending with
  | nil => cases hw
  | cons c cs =>
    obtain rfl := List.mem_singleton.mp hw
    refine ⟨fun h => List.cons_ne_nil c cs (List.reverse_eq_nil_iff.mp h), fun d hd => ?_⟩
    exact hpending d (List.mem_reverse.mp hd)

@[simp] theorem words_nil : words p [] = [] := rfl

/-- A separator splits the words into those before it and those after it. -/
theorem wordsFrom_append_sep (h : p c = true) :
    wordsFrom p pending (s ++ c :: t) = wordsFrom p pending s ++ words p t := by
  induction s generalizing pending with
  | nil => exact wordsFrom_cons_pos h
  | cons d ds ih =>
    rw [List.cons_append]
    cases hd : p d with
    | true =>
      rw [wordsFrom_cons_pos hd, wordsFrom_cons_pos hd, List.append_assoc]
      exact congrArg _ ih
    | false => rw [wordsFrom_cons_neg hd, wordsFrom_cons_neg hd, ih]

/-- Words end at a separator. -/
theorem words_append_sep (h : p c = true) : words p (s ++ c :: t) = words p s ++ words p t :=
  wordsFrom_append_sep h

theorem words_cons_sep (h : p c = true) : words p (c :: t) = words p t :=
  words_append_sep (s := []) h

theorem words_seps_append (h : ∀ c ∈ s, p c = true) : words p (s ++ t) = words p t := by
  induction s with
  | nil => rfl
  | cons c cs ih =>
    rw [List.forall_mem_cons] at h
    rw [List.cons_append, words_cons_sep h.1, ih h.2]

theorem wordsFrom_seps_append (hne : s ≠ []) (h : ∀ c ∈ s, p c = true) :
    wordsFrom p pending (s ++ t) = lastWord pending ++ words p t := by
  obtain ⟨c, cs, rfl⟩ := List.exists_cons_of_ne_nil hne
  rw [List.forall_mem_cons] at h
  rw [List.cons_append, wordsFrom_cons_pos h.1, words_seps_append h.2]

theorem words_append_seps (h : ∀ c ∈ t, p c = true) : words p (s ++ t) = words p s := by
  cases t with
  | nil => rw [List.append_nil]
  | cons c cs =>
    rw [List.forall_mem_cons] at h
    have hrest : words p (cs ++ []) = words p [] := words_seps_append h.2
    rw [List.append_nil] at hrest
    rw [words_append_sep h.1, hrest, words_nil, List.append_nil]

/-- Without a separator there is one word, what is pending in front of it. -/
theorem wordsFrom_word (h : ∀ c ∈ t, p c = false) :
    wordsFrom p pending t = lastWord (t.reverse ++ pending) := by
  induction t generalizing pending with
  | nil => rfl
  | cons c cs ih =>
    rw [List.forall_mem_cons] at h
    rw [wordsFrom_cons_neg h.1, ih h.2, List.reverse_cons, List.append_assoc]
    rfl

theorem words_word (hne : t ≠ []) (h : ∀ c ∈ t, p c = false) : words p t = [t] := by
  rw [words, wordsFrom_word h, List.append_nil]
  cases hrev : t.reverse with
  | nil => exact absurd (List.reverse_eq_nil_iff.mp hrev) hne
  | cons c cs => rw [lastWord, ← hrev, List.reverse_reverse]

/-- Every word is a word: not empty, and without separators. -/
theorem mem_wordsFrom {w : List α} (hpending : ∀ c ∈ pending, p c = false)
    (hw : w ∈ wordsFrom p pending t) : w ≠ [] ∧ ∀ c ∈ w, p c = false := by
  induction t generalizing pending with
  | nil => exact mem_lastWord hpending hw
  | cons c cs ih =>
    cases hc : p c with
    | true =>
      rw [wordsFrom_cons_pos hc] at hw
      obtain hw | hw := List.mem_append.mp hw
      · exact mem_lastWord hpending hw
      · exact ih (List.forall_mem_nil _) hw
    | false =>
      rw [wordsFrom_cons_neg hc] at hw
      exact ih (List.forall_mem_cons.mpr ⟨hc, hpending⟩) hw

theorem mem_words {w : List α} (hw : w ∈ words p t) : w ≠ [] ∧ ∀ c ∈ w, p c = false :=
  mem_wordsFrom (List.forall_mem_nil _) hw

/-- A map that moves separators only, to separators, keeps the words. -/
theorem wordsFrom_map {f : α → α} (h : ∀ c, f c ≠ c → p c = true ∧ p (f c) = true) :
    wordsFrom p pending (t.map f) = wordsFrom p pending t := by
  induction t generalizing pending with
  | nil => rfl
  | cons c cs ih =>
    have hsame : p (f c) = p c := by
      by_cases hc : f c = c
      · rw [hc]
      · rw [(h c hc).1, (h c hc).2]
    rw [List.map_cons]
    cases hc : p c with
    | true =>
      rw [wordsFrom_cons_pos (hsame.trans hc), wordsFrom_cons_pos hc]
      exact congrArg _ ih
    | false =>
      have hfix : f c = c := by
        by_contra hmoved
        rw [(h c hmoved).1] at hc
        cases hc
      rw [hfix, wordsFrom_cons_neg hc, wordsFrom_cons_neg hc, ih]

end Words

/-! ## One separator for a run of them -/

section SubRuns

variable {p sep : α → Bool} {least : Nat} {r c : α} {run t pending : List α}

theorem subRuns_cons_pos (h : p c = true) :
    subRuns p least r run (c :: t) = subRuns p least r (run ++ [c]) t := if_pos h

theorem subRuns_cons_neg (h : p c = false) :
    subRuns p least r run (c :: t) = closeRun least r run ++ c :: subRuns p least r [] t :=
  if_neg (Bool.eq_false_iff.mp h)

/-- What stands for a run is the replacement, or part of a run that is too short to be replaced. -/
theorem mem_closeRun (hc : c ∈ closeRun least r run) : c = r ∨ c ∈ run ∧ 1 < least := by
  unfold closeRun at hc
  split at hc
  next hshort =>
    have hpos : 0 < run.length := List.length_pos_of_mem hc
    exact .inr ⟨hc, by omega⟩
  next => exact .inl (List.mem_singleton.mp hc)

theorem closeRun_ne_nil (hrun : run ≠ []) : closeRun least r run ≠ [] := by
  unfold closeRun
  split
  · exact hrun
  · exact List.cons_ne_nil _ _

/-- If runs of two are replaced already, one character is left of any run. -/
theorem closeRun_length (hleast : least ≤ 2) : (closeRun least r run).length ≤ 1 := by
  unfold closeRun
  split
  · omega
  · exact Nat.le_refl 1

/-- A pass leaves no run of its class, and no element of it where a single one is a run. -/
theorem mem_subRuns (hc : c ∈ subRuns p least r run t) :
    c = r ∨ c ∈ run ++ t ∧ (p c = true → 1 < least) := by
  -- a run that is closed leaves the replacement, or its own letters where it was short
  have hclosed : ∀ run u : List α, c ∈ closeRun least r run →
      c = r ∨ c ∈ run ++ u ∧ (p c = true → 1 < least) := by
    intro run u hc
    obtain hr | ⟨hmem, hlong⟩ := mem_closeRun hc
    · exact .inl hr
    · exact .inr ⟨List.mem_append_left _ hmem, fun _ => hlong⟩
  induction t generalizing run with
  | nil => exact hclosed run [] hc
  | cons d ds ih =>
    cases hd : p d with
    | true =>
      rw [subRuns_cons_pos hd] at hc
      rw [List.append_cons]
      exact ih hc
    | false =>
      rw [subRuns_cons_neg hd] at hc
      obtain hc | hc := List.mem_append.mp hc
      · exact hclosed run (d :: ds) hc
      obtain rfl | hc := List.mem_cons.mp hc
      · have hmem : c ∈ run ++ c :: ds := List.mem_append_right _ List.mem_cons_self
        exact .inr ⟨hmem, fun h => absurd (hd.symm.trans h) Bool.false_ne_true⟩
      obtain hr | ⟨hmem, hlong⟩ := ih hc
      · exact .inl hr
      · exact .inr ⟨List.mem_append_right _ (List.mem_cons_of_mem _ hmem), hlong⟩

theorem closeRun_seps (hr : sep r = true) (hrun : ∀ c ∈ run, sep c = true) :
    ∀ c ∈ closeRun least r run, sep c = true := by
  intro c hc
  obtain rfl | ⟨hmem, -⟩ := mem_closeRun hc
  · exact hr
  · exact hrun c hmem

/-- A pass over a class of separators keeps the words. -/
theorem wordsFrom_subRuns (hleast : 0 < least) (hr : sep r = true)
    (hp : ∀ c, p c = true → sep c = true) (hrun : ∀ c ∈ run, sep c = true) :
    wordsFrom sep pending (subRuns p least r run t) = wordsFrom sep pending (run ++ t) := by
  have hclosed : closeRun least r [] = [] := if_pos hleast
  induction t generalizing run pending with
  | nil =>
    rw [List.append_nil]
    by_cases hempty : run = []
    · rw [hempty, subRuns, hclosed]
    · have hleft : wordsFrom sep pending (run ++ []) = lastWord pending ++ words sep [] :=
        wordsFrom_seps_append hempty hrun
      have hright : wordsFrom sep pending (closeRun least r run ++ []) =
          lastWord pending ++ words sep [] :=
        wordsFrom_seps_append (closeRun_ne_nil hempty) (closeRun_seps hr hrun)
      rw [List.append_nil] at hleft hright
      exact hright.trans hleft.symm
  | cons c cs ih =>
    cases hc : p c with
    | true =>
      have hrun' : ∀ d ∈ run ++ [c], sep d = true := by
        intro d hd
        obtain hd | hd := List.mem_append.mp hd
        · exact hrun d hd
        · exact List.mem_singleton.mp hd ▸ hp c hc
      rw [subRuns_cons_pos hc, ih hrun', List.append_assoc, List.singleton_append]
    | false =>
      -- Behind the run both lists go on with the same element.
      have hnext : ∀ pending : List α, wordsFrom sep pending (c :: subRuns p least r [] cs)
          = wordsFrom sep pending (c :: cs) := by
        intro pending
        cases hsep : sep c with
        | true =>
          rw [wordsFrom_cons_pos hsep, wordsFrom_cons_pos hsep]
          exact congrArg _ (ih (List.forall_mem_nil _))
        | false =>
          rw [wordsFrom_cons_neg hsep, wordsFrom_cons_neg hsep]
          exact ih (List.forall_mem_nil _)
      rw [subRuns_cons_neg hc]
      by_cases hempty : run = []
      · rw [hempty, hclosed]
        exact hnext pending
      · rw [wordsFrom_seps_append (closeRun_ne_nil hempty) (closeRun_seps hr hrun),
          wordsFrom_seps_append hempty hrun]
        exact congrArg _ (hnext [])

/-- Where a run of two gives way, no two elements of the class are left side by side. -/
theorem subRuns_lone (hleast : least ≤ 2) :
    (subRuns p least r run t).IsChain fun c d => p c = true → p d = false := by
  have hclosed : ∀ run : List α,
      (closeRun least r run).IsChain fun c d => p c = true → p d = false := by
    intro run
    have hlength : (closeRun least r run).length ≤ 1 := closeRun_length hleast
    match closeRun least r run, hlength with
    | [], _ => exact List.isChain_nil
    | [c], _ => exact List.isChain_singleton c
  induction t generalizing run with
  | nil => exact hclosed run
  | cons c cs ih =>
    cases hc : p c with
    | true =>
      rw [subRuns_cons_pos hc]
      exact ih
    | false =>
      rw [subRuns_cons_neg hc, List.isChain_append]
      refine ⟨hclosed run, List.isChain_cons.mpr ⟨fun d _ h => ?_, ih⟩, fun d _ e he _ => ?_⟩
      · exact absurd (hc.symm.trans h) Bool.false_ne_true
      · obtain rfl := Option.mem_some.mp he
        exact hc

end SubRuns

/-! ## Words joined by one separator each -/

section Joined

variable {p : α → Bool} {r c : α} {t s pending : List α} {ws : List (List α)}

/-- The words that have been read, and what is still to come, joined. -/
theorem intercalate_wordsFrom (hlone : t.IsChain fun c d => p c = true → p d = false)
    (hglue : ∀ c ∈ t, p c = true → c = r) (hlast : ∀ c ∈ t.getLast?, p c = false)
    (hhead : pending = [] → ∀ c ∈ t.head?, p c = false) :
    [r].intercalate (wordsFrom p pending t) = pending.reverse ++ t := by
  induction t generalizing pending with
  | nil =>
    cases pending with
    | nil => rfl
    | cons c cs => rw [wordsFrom, lastWord, List.intercalate_singleton, List.append_nil]
  | cons c cs ih =>
    rw [List.forall_mem_cons] at hglue
    rw [List.isChain_cons] at hlone
    have hlast' : ∀ d ∈ cs.getLast?, p d = false := fun d hd =>
      hlast d (List.mem_getLast?_cons hd)
    cases hc : p c with
    | true =>
      -- The separator ends a word, and another word begins behind it.
      have hpending : pending ≠ [] := fun h =>
        Bool.false_ne_true ((hhead h c rfl).symm.trans hc)
      have hrest : [r].intercalate (wordsFrom p [] cs) = [].reverse ++ cs :=
        ih hlone.2 hglue.2 hlast' fun _ d hd => hlone.1 d hd hc
      have hmore : words p cs ≠ [] := by
        intro hnone
        rw [words] at hnone
        rw [hnone] at hrest
        rw [show cs = [] from hrest.symm] at hlast
        exact Bool.false_ne_true ((hlast c rfl).symm.trans hc)
      obtain ⟨d, ds, rfl⟩ := List.exists_cons_of_ne_nil hpending
      rw [wordsFrom_cons_pos hc, lastWord, List.singleton_append,
        List.intercalate_cons_of_ne_nil hmore, words, hrest, hglue.1 hc, List.append_assoc]
      rfl
    | false =>
      have hrest : [r].intercalate (wordsFrom p (c :: pending) cs) = (c :: pending).reverse ++ cs :=
        ih hlone.2 hglue.2 hlast' fun h => absurd h (List.cons_ne_nil c pending)
      rw [wordsFrom_cons_neg hc, hrest, List.reverse_cons, List.append_assoc, List.singleton_append]

/-- A list with lone separators is its words joined again. -/
theorem Joined.intercalate_words (h : Joined p r t) : [r].intercalate (words p t) = t :=
  intercalate_wordsFrom h.lone h.glue h.last fun _ => h.head

/-- Words that are joined by a separator come apart again. -/
theorem words_intercalate (hr : p r = true) (h : ∀ w ∈ ws, w ≠ [] ∧ ∀ c ∈ w, p c = false) :
    words p ([r].intercalate ws) = ws := by
  induction ws with
  | nil => rfl
  | cons w ws ih =>
    rw [List.forall_mem_cons] at h
    have hword : words p w = [w] := words_word h.1.1 h.1.2
    by_cases hws : ws = []
    · rw [hws, List.intercalate_singleton, hword]
    · rw [List.intercalate_cons_of_ne_nil hws, List.append_assoc, List.singleton_append,
        words_append_sep hr, hword, ih h.2, List.singleton_append]

/-- A character of a joined text is the separator or belongs to a word. -/
theorem mem_intercalate (hc : c ∈ [r].intercalate ws) : c = r ∨ ∃ w ∈ ws, c ∈ w := by
  induction ws with
  | nil => cases hc
  | cons w ws ih =>
    by_cases hws : ws = []
    · rw [hws, List.intercalate_singleton] at hc
      exact .inr ⟨w, List.mem_cons_self, hc⟩
    · rw [List.intercalate_cons_of_ne_nil hws, List.append_assoc, List.mem_append] at hc
      obtain hc | hc := hc
      · exact .inr ⟨w, List.mem_cons_self, hc⟩
      obtain rfl | hc := List.mem_cons.mp hc
      · exact .inl rfl
      obtain hr | ⟨v, hv, hmem⟩ := ih hc
      · exact .inl hr
      · exact .inr ⟨v, List.mem_cons_of_mem _ hv, hmem⟩

/-- Joining at least one word, none of them empty, gives a text. -/
theorem intercalate_ne_nil (hne : ws ≠ []) (h : ∀ w ∈ ws, w ≠ []) : [r].intercalate ws ≠ [] := by
  obtain ⟨w, rest, rfl⟩ := List.exists_cons_of_ne_nil hne
  have hw : w ≠ [] := h w List.mem_cons_self
  by_cases hrest : rest = []
  · rw [hrest, List.intercalate_singleton]
    exact hw
  · rw [List.intercalate_cons_of_ne_nil hrest, List.append_assoc]
    exact List.append_ne_nil_of_left_ne_nil hw _

theorem getLast_intercalate (h : ∀ w ∈ ws, w ≠ []) :
    ∀ c ∈ ([r].intercalate ws).getLast?, ∃ w ∈ ws, c ∈ w := by
  intro c hc
  induction ws with
  | nil => cases hc
  | cons w ws ih =>
    have hrest : ∀ v ∈ ws, v ≠ [] := fun v hv => h v (List.mem_cons_of_mem _ hv)
    by_cases hws : ws = []
    · rw [hws, List.intercalate_singleton] at hc
      exact ⟨w, List.mem_cons_self, List.mem_of_mem_getLast? hc⟩
    · rw [List.intercalate_cons_of_ne_nil hws,
        List.getLast?_append_of_ne_nil _ (intercalate_ne_nil hws hrest)] at hc
      obtain ⟨v, hv, hmem⟩ := ih hrest hc
      exact ⟨v, List.mem_cons_of_mem _ hv, hmem⟩

theorem intercalate_append {vs : List (List α)} (hws : ws ≠ []) (hvs : vs ≠ []) :
    [r].intercalate (ws ++ vs) = [r].intercalate ws ++ r :: [r].intercalate vs := by
  induction ws with
  | nil => exact absurd rfl hws
  | cons w ws ih =>
    rw [List.cons_append,
      List.intercalate_cons_of_ne_nil (List.append_ne_nil_of_right_ne_nil ws hvs)]
    by_cases hrest : ws = []
    · rw [hrest, List.nil_append, List.intercalate_singleton, List.append_assoc]
      rfl
    · rw [ih hrest, List.intercalate_cons_of_ne_nil hrest, List.append_assoc, List.append_assoc,
        List.append_assoc]

/-- A part of a joined text that neither begins nor ends with a separator is joined itself. -/
theorem Joined.of_infix (h : Joined p r t) (hs : s <:+: t) (hhead : ∀ c ∈ s.head?, p c = false)
    (hlast : ∀ c ∈ s.getLast?, p c = false) : Joined p r s where
  lone := h.lone.infix hs
  glue := fun c hc => h.glue c (hs.subset hc)
  head := hhead
  last := hlast

theorem Joined.words_ne_nil (h : Joined p r t) (hne : t ≠ []) : words p t ≠ [] := by
  intro hnone
  have hjoin := h.intercalate_words
  rw [hnone] at hjoin
  exact hne hjoin.symm

/-- Two separators are never neighbours. -/
theorem Joined.around {c : α} {u v : List α} (h : Joined p r (u ++ c :: v)) (hc : p c = true) :
    Joined p r u ∧ Joined p r v ∧ u ≠ [] ∧ v ≠ [] := by
  have hchain := List.isChain_append.mp h.lone
  have hafter := List.isChain_cons.mp hchain.2.1
  have hu : u ≠ [] := by
    rintro rfl
    exact Bool.false_ne_true ((h.head c rfl).symm.trans hc)
  have hv : v ≠ [] := by
    rintro rfl
    exact Bool.false_ne_true ((h.last c List.getLast?_concat).symm.trans hc)
  have hbefore : Joined p r u := by
    refine h.of_infix (List.prefix_append u _).isInfix (fun d hd => ?_) fun d hd => ?_
    · exact h.head d (List.head?_append_of_ne_nil u hu ▸ hd)
    · by_contra hsep
      rw [Bool.not_eq_false] at hsep
      exact Bool.false_ne_true ((hchain.2.2 d hd c rfl hsep).symm.trans hc)
  have hbehind : Joined p r v := by
    refine h.of_infix ?_ (fun d hd => hafter.1 d hd hc) fun d hd => ?_
    · exact ((List.suffix_cons c v).trans (List.suffix_append u _)).isInfix
    · refine h.last d ?_
      rw [List.getLast?_append_of_ne_nil u (List.cons_ne_nil c v)]
      exact List.mem_getLast?_cons hd
  exact ⟨hbefore, hbehind, hu, hv⟩

/-- A cut leaves a separator last only where some of the words, joined, end right before it. -/
theorem Joined.cut_iff (hr : p r = true) (h : Joined p r t) {n : Nat} :
    (∃ c ∈ (t.take n).getLast?, p c = true) ↔ ∃ k, 0 < k ∧ k < (words p t).length ∧
      ([r].intercalate ((words p t).take k)).length + 1 = n := by
  constructor
  · rintro ⟨c, hlast, hc⟩
    obtain ⟨u, hu⟩ := List.getLast?_eq_some_iff.mp hlast
    have ht : u ++ c :: t.drop n = t := by
      rw [List.append_cons, ← hu, List.take_append_drop]
    -- The separator parts the words in front of it from those behind it.
    have hsplit := words_append_sep (s := u) (t := t.drop n) hc
    rw [ht] at hsplit
    rw [← ht] at h
    obtain ⟨hbefore, hbehind, hune, hvne⟩ := h.around hc
    have hk : (words p t).take (words p u).length = words p u := by
      rw [hsplit, List.take_left]
    refine ⟨(words p u).length, List.length_pos_of_ne_nil (hbefore.words_ne_nil hune), ?_, ?_⟩
    · have hmore := List.length_pos_of_ne_nil (hbehind.words_ne_nil hvne)
      rw [hsplit, List.length_append]
      omega
    · have hlength := congrArg List.length hu
      have hleft := List.length_pos_of_ne_nil hvne
      rw [List.length_take, List.length_append, List.length_singleton] at hlength
      rw [List.length_drop] at hleft
      rw [hk, hbefore.intercalate_words]
      omega
  · rintro ⟨k, hpos, hlt, hlength⟩
    have htake : (words p t).take k ≠ [] := by
      rw [← List.length_pos_iff, List.length_take]
      omega
    have hdrop : (words p t).drop k ≠ [] := by
      rw [← List.length_pos_iff, List.length_drop]
      omega
    -- The cut is right behind the separator that follows the first `k` words.
    have hjoin : ([r].intercalate ((words p t).take k) ++ [r])
        ++ [r].intercalate ((words p t).drop k) = t := by
      rw [List.append_assoc, List.singleton_append, ← intercalate_append htake hdrop,
        List.take_append_drop, h.intercalate_words]
    refine ⟨r, ?_, hr⟩
    rw [← hjoin, List.take_left' (by rw [List.length_append]; exact hlength), List.getLast?_concat]
    rfl

end Joined

end SarkariWorld.Lib
