import SarkariWorld.Content.Bookmark
import SarkariWorld.Lib.Linearizable
import SarkariWorld.Lib.Run

/-!
# Overlapping toggles

Any number of calls of `toggle` on one reader's bookmark of one article. A call
looks the bookmark up and, at some later moment, commits what it decided; the
sequence numbers new rows and never repeats itself.

Run one at a time, toggles flip the bookmark (`toggle_alone`). The unique index
keeps two overlapping inserts apart, but nothing does that for two deletes: a
call that commits the deletion of a row which is gone already still answers that
it removed the bookmark. `toggles_linearizable_iff`: runs without such a commit
are linearizable, and no others.

The model has two steps for a call, because the answer is known from the lookup and only
the commit can change the row. What other readers do, and what happens to the article,
plays no part: it does not touch the pair. A run is linearizable if its answers are, in
some order of the calls, those of toggles run one at a time.

A commit of an insertion whose pair is there by then is refused by the unique index, and
the call has no answer; a commit of a deletion whose row has gone deletes nothing and is
answered as if it had. Only answered calls enter the log.
-/

namespace SarkariWorld.Content

open SarkariWorld.Lib

/-! ## One call at a time -/

/-- The reader has the article bookmarked. -/
def present (t : BookmarkTable) (userId articleId : Int) : Bool :=
  (lookup Bookmark.pairCol (userId, articleId) t.rows).isSome

/-- A toggle as its reader understands it: it turns the bookmark over and answers
what it is now. -/
def toggled (bookmarked : Bool) (_call : Nat) : Bool × Bool := (!bookmarked, !bookmarked)

variable {t t' : BookmarkTable} {userId articleId : Int} {clock : Nat} {nextId : Int}

/-- The bookmark is there if there is a row of the pair. -/
theorem present_iff :
    present t userId articleId = true ↔
      ∃ b ∈ t.rows, b.userId = userId ∧ b.articleId = articleId := by
  rw [present, Option.isSome_iff_exists]
  constructor
  · rintro ⟨b, hb⟩
    obtain ⟨hmem, hpair⟩ := mem_of_lookup hb
    exact ⟨b, hmem, Bookmark.pairCol_eq_some.mp hpair⟩
  · rintro ⟨b, hmem, hpair⟩
    exact ⟨b, lookup_of_mem t.uniquePair hmem (Bookmark.pairCol_eq_some.mpr hpair)⟩

/-- What an insert that commits does: the bookmark was not there, and now it is. -/
theorem commit_insert
    (h : commitBookmark t clock nextId (.insert userId articleId) = .ok t') :
    t'.rows = t.rows ++ [⟨nextId, userId, articleId, timestamp3 (nowIst clock)⟩] ∧
      present t userId articleId = false ∧ present t' userId articleId = true := by
  have hrows : t'.rows = t.rows ++ [⟨nextId, userId, articleId, timestamp3 (nowIst clock)⟩] :=
    BookmarkTable.write_ok h
  have hnew : (⟨nextId, userId, articleId, timestamp3 (nowIst clock)⟩ : Bookmark) ∈ t'.rows := by
    rw [hrows]
    exact List.mem_append_right _ (List.mem_singleton_self _)
  refine ⟨hrows, Bool.eq_false_iff.mpr fun hbefore => ?_, present_iff.mpr ⟨_, hnew, rfl, rfl⟩⟩
  obtain ⟨b, hb, hpair⟩ := present_iff.mp hbefore
  have hunique := t'.uniquePair
  rw [hrows] at hunique
  exact col_ne_of_append hunique rfl b hb (Bookmark.pairCol_eq_some.mpr hpair)

/-- What the deletion of a stored row does: the bookmark was there, and now it is
not. -/
theorem commit_delete {existing : Bookmark} (hmem : existing ∈ t.rows)
    (hpair : existing.userId = userId ∧ existing.articleId = articleId) :
    present t userId articleId = true ∧
      present (t.delete existing.id) userId articleId = false := by
  refine ⟨present_iff.mpr ⟨existing, hmem, hpair⟩, Bool.eq_false_iff.mpr fun hafter => ?_⟩
  obtain ⟨b, hb, hb'⟩ := present_iff.mp hafter
  obtain ⟨hold, hne⟩ := List.mem_filter.mp hb
  have hsame := eq_of_uniqueCol t.uniquePair hold hmem (Bookmark.pairCol_eq_some.mpr hb')
    (Bookmark.pairCol_eq_some.mpr hpair)
  exact of_decide_eq_true hne (congrArg Bookmark.id hsame)

theorem toggle_delete {existing : Bookmark} (h : toggle t userId articleId = .delete existing) :
    existing ∈ t.rows ∧ existing.userId = userId ∧ existing.articleId = articleId := by
  unfold toggle at h
  split at h
  next b hb =>
    obtain rfl := BookmarkWrite.delete.inj h
    obtain ⟨hmem, hpair⟩ := mem_of_lookup hb
    exact ⟨hmem, Bookmark.pairCol_eq_some.mp hpair⟩
  next => cases h

theorem toggle_insert {u a : Int} (h : toggle t userId articleId = .insert u a) :
    u = userId ∧ a = articleId := by
  unfold toggle at h
  split at h
  next => cases h
  next =>
    obtain ⟨rfl, rfl⟩ := BookmarkWrite.insert.inj h
    exact ⟨rfl, rfl⟩

/-- **A toggle that nothing overlaps is a flip.** -/
theorem toggle_alone
    (h : commitBookmark t clock nextId (toggle t userId articleId) = .ok t') (call : Nat) :
    toggled (present t userId articleId) call =
      ((toggle t userId articleId).bookmarked, present t' userId articleId) := by
  cases hw : toggle t userId articleId with
  | delete existing =>
    rw [hw] at h
    obtain rfl := Except.ok.inj h
    obtain ⟨hmem, hpair⟩ := toggle_delete hw
    obtain ⟨hbefore, hafter⟩ := commit_delete hmem hpair
    rw [hbefore, hafter]
    rfl
  | insert u a =>
    rw [hw] at h
    obtain ⟨rfl, rfl⟩ := toggle_insert hw
    obtain ⟨-, hbefore, hafter⟩ := commit_insert h
    rw [hbefore, hafter]
    rfl

/-! ## Overlapping calls -/

/-- How far a call is. -/
inductive ToggleStage where
  | idle
  | looked (write : BookmarkWrite)
  | done (result : Except PyError Bool)

/-- The table in the middle of a run, with the calls under way. -/
structure Toggles where
  bookmarks : BookmarkTable
  /-- The next number of the sequence. -/
  nextId : Int
  clock : Nat
  stage : Nat → ToggleStage
  /-- The calls that completed successfully and what they returned, in the order of
  their commits. A ghost: the code keeps no log. -/
  log : List (Nat × Bool)

/-- The next step of a call, or the clock going on. -/
inductive ToggleAction where
  | lookup (call : Nat)
  /-- `skipped` numbers of the sequence went to other inserts meanwhile. -/
  | commit (call : Nat) (skipped : Nat)
  | tick (microseconds : Nat)
  deriving DecidableEq, Repr

/-- The call goes on to the stage. -/
def Toggles.setStage (s : Toggles) (call : Nat) (stage : ToggleStage) : Toggles :=
  { s with stage := Function.update s.stage call stage }

/-- The sequence after a commit that was given the number `drawn`. -/
def BookmarkWrite.sequence (nextId drawn : Int) : BookmarkWrite → Int
  | .delete _ => nextId
  | .insert _ _ => drawn + 1

/-- Calls of `toggle` for one reader and one article. -/
def toggleStep (userId articleId : Int) (s : Toggles) : ToggleAction → Option Toggles
  | .lookup call =>
    match s.stage call with
    | .idle => some (s.setStage call (.looked (toggle s.bookmarks userId articleId)))
    | _ => none
  | .commit call skipped =>
    match s.stage call with
    | .looked write =>
      match commitBookmark s.bookmarks s.clock (s.nextId + skipped) write with
      | .error e => some (s.setStage call (.done (.error e)))
      | .ok bookmarks =>
        some { s.setStage call (.done (.ok write.bookmarked)) with
          bookmarks := bookmarks
          nextId := write.sequence s.nextId (s.nextId + skipped)
          log := s.log ++ [(call, write.bookmarked)] }
    | _ => none
  | .tick microseconds => some { s with clock := s.clock + microseconds }

/-- A call that will delete a row which is not among `rows`. -/
def ToggleStage.stale (rows : List Bookmark) : ToggleStage → Bool
  | .looked (.delete existing) => decide (existing ∉ rows)
  | _ => false

/-- The action commits the deletion of a row that is gone. -/
def staleDelete (s : Toggles) : ToggleAction → Bool
  | .commit call _ => (s.stage call).stale s.bookmarks.rows
  | _ => false

/-- No call has begun, and the sequence is ahead of the table. -/
structure Toggles.Starts (s : Toggles) : Prop where
  idle : ∀ call, s.stage call = .idle
  log : s.log = []
  numbered : ∀ b ∈ s.bookmarks.rows, b.id < s.nextId

/-- What the calls in flight know: a row to be deleted is the reader's, and its
number names no other row, now or later. -/
structure TogglesInv (userId articleId : Int) (s : Toggles) : Prop where
  numbered : ∀ b ∈ s.bookmarks.rows, b.id < s.nextId
  deletes : ∀ call existing, s.stage call = .looked (.delete existing) →
    (existing.userId = userId ∧ existing.articleId = articleId) ∧ existing.id < s.nextId ∧
      ∀ b ∈ s.bookmarks.rows, b.id = existing.id → b = existing
  inserts : ∀ call u a, s.stage call = .looked (.insert u a) → u = userId ∧ a = articleId

variable {s s' : Toggles} {action : ToggleAction}

theorem Toggles.Starts.inv (h : s.Starts) : TogglesInv userId articleId s where
  numbered := h.numbered
  deletes call existing hlooked := by
    rw [h.idle call] at hlooked
    cases hlooked
  inserts call u a hlooked := by
    rw [h.idle call] at hlooked
    cases hlooked

/-- A call that is done is not the one that has looked. -/
theorem looked_of_done {call i : Nat} {result : Except PyError Bool} {write : BookmarkWrite}
    (h : (s.setStage call (.done result)).stage i = .looked write) : s.stage i = .looked write := by
  by_cases hi : i = call
  · subst hi
    cases (Function.update_self ..).symm.trans h
  · exact (Function.update_of_ne hi ..).symm.trans h

/-- **What a step is.** -/
theorem toggleStep_cases (h : toggleStep userId articleId s action = some s') :
    (∃ call, action = .lookup call ∧
      s' = s.setStage call (.looked (toggle s.bookmarks userId articleId))) ∨
    (∃ call skipped write e, action = .commit call skipped ∧
      s.stage call = .looked write ∧
      commitBookmark s.bookmarks s.clock (s.nextId + skipped) write = .error e ∧
      s' = s.setStage call (.done (.error e))) ∨
    (∃ call skipped write bookmarks, action = .commit call skipped ∧
      s.stage call = .looked write ∧
      commitBookmark s.bookmarks s.clock (s.nextId + skipped) write = .ok bookmarks ∧
      s' = { s.setStage call (.done (.ok write.bookmarked)) with
        bookmarks := bookmarks
        nextId := write.sequence s.nextId (s.nextId + skipped)
        log := s.log ++ [(call, write.bookmarked)] }) ∨
    ∃ microseconds, action = .tick microseconds ∧
      s' = { s with clock := s.clock + microseconds } := by
  cases action with
  | lookup call =>
    simp only [toggleStep] at h
    split at h
    next => exact .inl ⟨call, rfl, (Option.some.inj h).symm⟩
    next => cases h
  | commit call skipped =>
    simp only [toggleStep] at h
    split at h
    next write hlooked =>
      split at h
      next e hcommit =>
        exact .inr (.inl ⟨call, skipped, write, e, rfl, hlooked, hcommit, (Option.some.inj h).symm⟩)
      next bookmarks hcommit =>
        exact .inr (.inr (.inl ⟨call, skipped, write, bookmarks, rfl, hlooked, hcommit,
          (Option.some.inj h).symm⟩))
    next => cases h
  | tick microseconds =>
    exact .inr (.inr (.inr ⟨microseconds, rfl, (Option.some.inj h).symm⟩))

/-- The invariant survives whatever adds only rows with new numbers and sends no
new call looking. -/
theorem inv_mono (hinv : TogglesInv userId articleId s) (hnext : s.nextId ≤ s'.nextId)
    (hrows : ∀ b ∈ s'.bookmarks.rows, b ∈ s.bookmarks.rows ∨ s.nextId ≤ b.id ∧ b.id < s'.nextId)
    (hstage : ∀ i write, s'.stage i = .looked write → s.stage i = .looked write) :
    TogglesInv userId articleId s' where
  numbered b hb := by
    rcases hrows b hb with hold | hnew
    · have := hinv.numbered b hold
      omega
    · exact hnew.2
  deletes call existing hlooked := by
    obtain ⟨hpair, hid, hsame⟩ := hinv.deletes call existing (hstage _ _ hlooked)
    refine ⟨hpair, by omega, fun b hb he => ?_⟩
    rcases hrows b hb with hold | hnew
    · exact hsame b hold he
    · omega
  inserts call u a hlooked := hinv.inserts call u a (hstage _ _ hlooked)

/-- The rows after a commit: none is new but an inserted one. -/
theorem commitBookmark_rows {write : BookmarkWrite} {drawn : Int} (hdrawn : nextId ≤ drawn)
    (h : commitBookmark t clock drawn write = .ok t') :
    nextId ≤ write.sequence nextId drawn ∧ ∀ b ∈ t'.rows,
      b ∈ t.rows ∨ nextId ≤ b.id ∧ b.id < write.sequence nextId drawn := by
  cases write with
  | delete existing =>
    obtain rfl := Except.ok.inj h
    exact ⟨Int.le_refl _, fun b hb => .inl (List.mem_filter.mp hb).1⟩
  | insert u a =>
    obtain ⟨hrows, -⟩ := commit_insert h
    refine ⟨by simp only [BookmarkWrite.sequence]; omega, fun b hb => ?_⟩
    rw [hrows] at hb
    rcases List.mem_append.mp hb with hold | hnew
    · exact .inl hold
    · obtain rfl := List.mem_singleton.mp hnew
      exact .inr ⟨hdrawn, Int.lt_succ _⟩

theorem toggles_inv (hinv : TogglesInv userId articleId s)
    (h : toggleStep userId articleId s action = some s') : TogglesInv userId articleId s' := by
  rcases toggleStep_cases h with ⟨call, -, rfl⟩ | ⟨call, skipped, write, e, -, -, -, rfl⟩ |
    ⟨call, skipped, write, bookmarks, -, -, hcommit, rfl⟩ | ⟨d, -, rfl⟩
  · refine ⟨hinv.numbered, fun i existing hlooked => ?_, fun i u a hlooked => ?_⟩
    · by_cases hi : i = call
      · subst hi
        have hw := ToggleStage.looked.inj ((Function.update_self ..).symm.trans hlooked)
        obtain ⟨hmem, hpair⟩ := toggle_delete hw
        refine ⟨hpair, hinv.numbered existing hmem, fun b hb he => ?_⟩
        exact eq_of_uniqueCol s.bookmarks.uniqueId hb hmem (Bookmark.idCol_eq_some.mpr he) rfl
      · exact hinv.deletes i existing ((Function.update_of_ne hi ..).symm.trans hlooked)
    · by_cases hi : i = call
      · subst hi
        exact toggle_insert (ToggleStage.looked.inj ((Function.update_self ..).symm.trans hlooked))
      · exact hinv.inserts i u a ((Function.update_of_ne hi ..).symm.trans hlooked)
  · exact inv_mono hinv (Int.le_refl _) (fun b hb => .inl hb) fun i write => looked_of_done
  · have hdrawn : s.nextId ≤ s.nextId + skipped := by omega
    obtain ⟨hnext, hrows⟩ := commitBookmark_rows hdrawn hcommit
    exact inv_mono hinv hnext hrows fun i write => looked_of_done
  · exact ⟨hinv.numbered, hinv.deletes, hinv.inserts⟩

/-- Deleting a number nobody has deletes nothing. -/
theorem delete_of_absent {id : Int} (h : ∀ b ∈ t.rows, b.id ≠ id) : (t.delete id).rows = t.rows :=
  List.filter_eq_self.mpr fun b hb => decide_eq_true (h b hb)

/-- **What a step does to the bookmark.** It answers no call and leaves it alone, it
answers a call and flips it, or it commits a stale deletion: the call answers
that the bookmark is gone, and nothing changes. -/
theorem toggleStep_effect (hinv : TogglesInv userId articleId s)
    (h : toggleStep userId articleId s action = some s') :
    (staleDelete s action = false ∧ s'.log = s.log ∧
      present s'.bookmarks userId articleId = present s.bookmarks userId articleId) ∨
    (staleDelete s action = false ∧ ∃ call answer, s'.log = s.log ++ [(call, answer)] ∧
      toggled (present s.bookmarks userId articleId) call =
        (answer, present s'.bookmarks userId articleId)) ∨
    (staleDelete s action = true ∧ ∃ call, s'.log = s.log ++ [(call, false)] ∧
      present s'.bookmarks userId articleId = present s.bookmarks userId articleId) := by
  rcases toggleStep_cases h with ⟨call, rfl, rfl⟩ |
    ⟨call, skipped, write, e, rfl, hlooked, hcommit, rfl⟩ |
    ⟨call, skipped, write, bookmarks, rfl, hlooked, hcommit, rfl⟩ | ⟨d, rfl, rfl⟩
  · exact .inl ⟨rfl, rfl, rfl⟩
  · cases write with
    | delete existing => cases hcommit
    | insert u a => exact .inl ⟨by rw [staleDelete, hlooked]; rfl, rfl, rfl⟩
  · cases write with
    | delete existing =>
      obtain ⟨hpair, -, hsame⟩ := hinv.deletes call existing hlooked
      obtain rfl := Except.ok.inj hcommit
      have hstale : staleDelete s (.commit call skipped) =
          decide (existing ∉ s.bookmarks.rows) := by
        rw [staleDelete, hlooked]
        rfl
      -- The row may have gone between the look and the commit.
      by_cases hmem : existing ∈ s.bookmarks.rows
      · obtain ⟨hbefore, hafter⟩ := commit_delete hmem hpair
        refine .inr (.inl ⟨hstale.trans (decide_eq_false (not_not_intro hmem)), call, false, rfl,
          ?_⟩)
        rw [hbefore, hafter]
        rfl
      · refine .inr (.inr ⟨hstale.trans (decide_eq_true hmem), call, rfl, ?_⟩)
        have hrows : (s.bookmarks.delete existing.id).rows = s.bookmarks.rows :=
          delete_of_absent fun b hb he => hmem (hsame b hb he ▸ hb)
        unfold present
        rw [hrows]
    | insert u a =>
      obtain ⟨rfl, rfl⟩ := hinv.inserts call u a hlooked
      obtain ⟨-, hbefore, hafter⟩ := commit_insert hcommit
      refine .inr (.inl ⟨by rw [staleDelete, hlooked]; rfl, call, true, rfl, ?_⟩)
      rw [hbefore, hafter]
      rfl
  · exact .inl ⟨rfl, rfl, rfl⟩

/-! ## The balance of answers -/

/-- How many more calls answered that the bookmark is gone than that it is there,
and one more if it is there at the end. Flips never change it. -/
def balance (log : List (Nat × Bool)) (bookmarked : Bool) : Int :=
  log.countP (fun entry => !entry.2) + bookmarked.toNat - log.countP (fun entry => entry.2)

theorem balance_perm {log log' : List (Nat × Bool)} (h : log.Perm log') (bookmarked : Bool) :
    balance log bookmarked = balance log' bookmarked := by
  unfold balance
  rw [h.countP_eq, h.countP_eq]

theorem balance_snoc (log : List (Nat × Bool)) (call : Nat) (answer bookmarked : Bool) :
    balance (log ++ [(call, answer)]) bookmarked =
      balance log bookmarked + if answer then -1 else 1 := by
  unfold balance
  cases answer
  · simp
    omega
  · simp
    omega

theorem balance_cons (log : List (Nat × Bool)) (call : Nat) (answer bookmarked : Bool) :
    balance ((call, answer) :: log) bookmarked =
      balance log bookmarked + if answer then -1 else 1 := by
  rw [← balance_snoc log call]
  exact balance_perm (List.perm_append_singleton ..).symm bookmarked

/-- A history of flips balances to where it began. -/
theorem balance_of_legal {before after : Bool} {hist : List (Nat × Bool)}
    (h : Legal toggled before hist after) : balance hist after = before.toNat := by
  induction hist generalizing before with
  | nil =>
    obtain rfl := h
    simp [balance]
  | cons entry hist ih =>
    obtain ⟨call, answer⟩ := entry
    obtain ⟨hanswer, hrest⟩ := h
    obtain rfl : (!before) = answer := hanswer
    rw [balance_cons, ih hrest]
    cases before <;> rfl

/-! ## Runs -/

variable {s₀ : Toggles} {actions : List ToggleAction}

/-- Where the log and the bookmark stand. -/
def Toggles.balance (userId articleId : Int) (s : Toggles) : Int :=
  Content.balance s.log (present s.bookmarks userId articleId)

/-- A stale deletion is one answer too many. -/
theorem balance_step (hinv : TogglesInv userId articleId s)
    (h : toggleStep userId articleId s action = some s') :
    s'.balance userId articleId =
      s.balance userId articleId + (staleDelete s action).toNat := by
  unfold Toggles.balance
  rcases toggleStep_effect hinv h with ⟨hstale, hlog, hsame⟩ | ⟨hstale, call, answer, hlog, hflip⟩ |
    ⟨hstale, call, hlog, hsame⟩
  · rw [hstale, hlog, hsame]
    exact (Int.add_zero _).symm
  · obtain ⟨rfl, hafter⟩ := Prod.mk.inj hflip
    rw [hstale, hlog, ← hafter, balance_snoc]
    unfold Content.balance
    cases present s.bookmarks userId articleId
    · simp
      omega
    · simp
      omega
  · rw [hstale, hlog, hsame, balance_snoc]
    rfl

/-- Over a run the balance rises, unless none of its deletions is stale. -/
theorem balance_run (hinv : TogglesInv userId articleId s₀)
    (h : exec (toggleStep userId articleId) s₀ actions = some s) :
    s₀.balance userId articleId ≤ s.balance userId articleId ∧
      (s₀.balance userId articleId < s.balance userId articleId ∨
        AllSteps (toggleStep userId articleId) (fun s a => staleDelete s a = false) s₀
          actions) := by
  induction actions generalizing s₀ with
  | nil =>
    obtain rfl := Option.some.inj h
    exact ⟨Int.le_refl _, .inr trivial⟩
  | cons action actions ih =>
    obtain ⟨m, hstep, hrest⟩ := exec_cons_some.mp h
    obtain ⟨hle, hrun⟩ := ih (toggles_inv hinv hstep) hrest
    have hbalance := balance_step hinv hstep
    cases hstale : staleDelete s₀ action with
    | true =>
      rw [hstale, Bool.toNat_true] at hbalance
      exact ⟨by omega, .inl (by omega)⟩
    | false =>
      rw [hstale, Bool.toNat_false] at hbalance
      refine ⟨by omega, hrun.imp (fun hlt => by omega) fun hall => ⟨hstale, fun m' hm' => ?_⟩⟩
      rw [hstep, Option.some.injEq] at hm'
      exact hm' ▸ hall

/-- Without stale deletions, the commits in their order are a history of flips. -/
theorem legal_run (h₀ : s₀.Starts)
    (hall : AllSteps (toggleStep userId articleId) (fun s a => staleDelete s a = false) s₀ actions)
    (h : exec (toggleStep userId articleId) s₀ actions = some s) :
    Legal toggled (present s₀.bookmarks userId articleId) s.log
      (present s.bookmarks userId articleId) := by
  suffices hboth : TogglesInv userId articleId s ∧
      Legal toggled (present s₀.bookmarks userId articleId) s.log
        (present s.bookmarks userId articleId) from hboth.2
  refine exec_inv (I := fun s => TogglesInv userId articleId s ∧
    Legal toggled (present s₀.bookmarks userId articleId) s.log
      (present s.bookmarks userId articleId)) ?_ hall ⟨h₀.inv, by rw [h₀.log]; rfl⟩ h
  intro s action s' hfresh ⟨hinv, hlegal⟩ hstep
  refine ⟨toggles_inv hinv hstep, ?_⟩
  rcases toggleStep_effect hinv hstep with ⟨-, hlog, hsame⟩ | ⟨-, call, answer, hlog, hflip⟩ |
    ⟨hstale, -⟩
  · rw [hlog, hsame]
    exact hlegal
  · rw [hlog]
    exact legal_snoc hlegal (congrArg Prod.fst hflip) (congrArg Prod.snd hflip)
  · rw [hfresh] at hstale
    cases hstale

/-- An order of the calls that explains their answers leaves no room for a stale
deletion. -/
theorem fresh_of_linearizable (h₀ : s₀.Starts)
    (h : exec (toggleStep userId articleId) s₀ actions = some s)
    (hlin : Linearizable toggled (present s₀.bookmarks userId articleId) s.log
      (present s.bookmarks userId articleId)) :
    AllSteps (toggleStep userId articleId) (fun s a => staleDelete s a = false) s₀ actions := by
  obtain ⟨hist, hperm, hlegal⟩ := hlin
  obtain ⟨-, hrises | hall⟩ := balance_run h₀.inv h
  · have hend : s.balance userId articleId = (present s₀.bookmarks userId articleId).toNat :=
      (balance_perm hperm _).symm.trans (balance_of_legal hlegal)
    have hstart : s₀.balance userId articleId = (present s₀.bookmarks userId articleId).toNat := by
      unfold Toggles.balance
      rw [h₀.log]
      exact balance_of_legal rfl
    omega
  · exact hall

/-- **Overlapping toggles are linearizable exactly when no commit deletes a row
that is gone.** -/
theorem toggles_linearizable_iff (h₀ : s₀.Starts)
    (h : exec (toggleStep userId articleId) s₀ actions = some s) :
    Linearizable toggled (present s₀.bookmarks userId articleId) s.log
        (present s.bookmarks userId articleId) ↔
      AllSteps (toggleStep userId articleId) (fun s a => staleDelete s a = false) s₀ actions :=
  ⟨fresh_of_linearizable h₀ h, fun hall => linearizable_of_legal (legal_run h₀ hall h)⟩

/-- The bookmark of article 2, before any call. -/
def sampleToggles : Toggles where
  bookmarks := sampleBookmarks
  nextId := 2
  clock := 0
  stage _ := .idle
  log := []

theorem sampleToggles_starts : sampleToggles.Starts := ⟨fun _ => rfl, rfl, by decide⟩

/-- Two calls look at once, one of them deletes, and a third inserts before the
other deletes what it saw. -/
def overlappingToggles : List ToggleAction :=
  [.lookup 0, .lookup 1, .commit 1 0, .lookup 2, .commit 2 0, .commit 0 0]

/-- Without the second of the overlapping calls, the history is one of flips. -/
theorem consecutive_toggles :
    ∃ s, exec (toggleStep 7 2) sampleToggles
        [.lookup 1, .commit 1 0, .lookup 2, .commit 2 0] = some s ∧
      Linearizable toggled (present sampleToggles.bookmarks 7 2) s.log
        (present s.bookmarks 7 2) := by
  have hrun : (exec (toggleStep 7 2) sampleToggles
      [.lookup 1, .commit 1 0, .lookup 2, .commit 2 0]).map (fun _ => true) = some true := by
    decide +kernel
  obtain ⟨s, hs, -⟩ := exec_of_test hrun
  exact ⟨s, hs, (toggles_linearizable_iff sampleToggles_starts hs).mpr (by decide +kernel)⟩

/-- The last call answers that the article is no longer bookmarked, and it is. -/
theorem overlapping_toggles :
    ∃ s, exec (toggleStep 7 2) sampleToggles overlappingToggles = some s ∧
      s.log = [(1, false), (2, true), (0, false)] ∧ present s.bookmarks 7 2 = true ∧
      ¬ Linearizable toggled (present sampleToggles.bookmarks 7 2) s.log
        (present s.bookmarks 7 2) := by
  have hrun : (exec (toggleStep 7 2) sampleToggles overlappingToggles).map (fun s =>
      decide (s.log = [(1, false), (2, true), (0, false)] ∧ present s.bookmarks 7 2 = true)) =
        some true := by
    decide +kernel
  obtain ⟨s, hs, htest⟩ := exec_of_test hrun
  obtain ⟨hlog, hpresent⟩ := of_decide_eq_true htest
  refine ⟨s, hs, hlog, hpresent, fun hlin => ?_⟩
  have hall := fresh_of_linearizable sampleToggles_starts hs hlin
  have hstale : ¬ AllSteps (toggleStep 7 2) (fun s a => staleDelete s a = false) sampleToggles
      overlappingToggles := by
    decide +kernel
  exact hstale hall

end SarkariWorld.Content
