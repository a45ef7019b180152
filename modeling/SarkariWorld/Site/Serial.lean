import SarkariWorld.Site.Interleavings

/-!
# Requests one after the other

`Site.Service` carries out one request at a time. Where nothing fails and the sequences
give the numbers, each of its runs is one of overlapping requests that happen not to
overlap, with the same answers (`serial_refines`).

The two models of the service are made for different questions, `Site.Service` for what a
sequence of requests does and `Site.Threads` for what happens in between. The refinement
carries results about interleaved requests over to sequences: what no interleaving can do,
no sequence can either. A call becomes a start and as many exchanges as its thread has,
and the alike states are the ones in which nobody is waiting (`Alike`).
-/

namespace SarkariWorld.Site.Threads

open SarkariWorld.Lib SarkariWorld.Auth SarkariWorld.Content
open SarkariWorld.Lib.Thread

/-! ## One request -/

/-- The sequence that numbers the new row of a request. -/
def requestSequence : WriteRequest → Option Sequence
  | .post request => if addsArticle request then some .article else none
  | .toggleBookmark _ => some .bookmark
  | .createWebUrl _ => some .webUrl
  | .signIn _ => some .user
  | _ => none

/-- A request draws from its own sequence, if from any. -/
theorem Licence.sequence {o : Origin} {seen : Moments} {request : WriteRequest} {change : Change}
    (h : Licence o seen request change) :
    sequenceOf change = none ∨ sequenceOf change = requestSequence request := by
  cases h with
  | addArticle post actor data hactor hadds =>
    refine .inr ?_
    show _ = if addsArticle post = true then _ else _
    rw [if_pos hadds]
    rfl
  | addBookmark slug actor a hactor ha hslug => exact .inr rfl
  | addWebUrl payload actor parsed hactor hparsed => exact .inr rfl
  | newAccount profile clock => exact .inr rfl
  | _ => exact .inl rfl

section Serial

variable {auth : Auth.Env} {content : Content.Env} {m : Traffic} {r : Nat}

/-- **A request nobody interrupts** ends as its handler does, and leaves what its
handler leaves. -/
theorem uninterrupted_write (ctx : Context) (request : WriteRequest)
    (hidle : m.slot r = .idle) (hclock : m.clock = ctx.clock)
    (hnumber : ∀ k ∈ requestSequence request, m.next k ≤ ctx.nextId) :
    ∃ n m', exec (siteMove ctx.auth ctx.content) m
        (.start r ⟨ctx.creds, ctx.draw, request⟩ :: List.replicate n (.go r ctx.nextId)) = some m' ∧
      RanAlone store (fun change => sequenceOf change = none ∨
          sequenceOf change = requestSequence request) m r ⟨ctx.creds, ctx.draw, request⟩ ctx.nextId
        ((serveWrite ctx m.stored [] request).1, (serveWrite ctx m.stored [] request).2.stored)
        m' := by
  let asked : Asked := ⟨ctx.creds, ctx.draw, request⟩
  let started : Traffic := m.put r (.running asked (program ctx.auth ctx.content asked))
  -- all it may commit is a row of its own sequence, and of that the number is free
  have hready : started.Ready store (fun change => sequenceOf change = none ∨
      sequenceOf change = requestSequence request) ctx.nextId
      (program ctx.auth ctx.content asked) := by
    refine .inr ⟨handleWrite_transactional request, ?_⟩
    refine (handleWrite_licensed request).writes fun seen change hlicence => ?_
    refine ⟨?_, hlicence.sequence⟩
    unfold Store.numbers
    split
    next => rfl
    next k hk =>
      refine decide_eq_true (hnumber k ?_)
      rcases hlicence.sequence with hnone | hsame
      · cases hnone.symm.trans hk
      · exact hsame.symm.trans hk
  obtain ⟨n, m', hrun, halone⟩ := exec_alone (s := started) (put_self m r _) hready
  -- run alone, the program of a request is its handler
  have hending : (program ctx.auth ctx.content asked).alone store ctx.clock ctx.nextId m.stored =
      ((serveWrite ctx m.stored [] request).1, (serveWrite ctx m.stored [] request).2.stored) :=
    handleWrite_refines request (.begin m.stored []) rfl ⟨rfl, rfl⟩
  have hsame : (program ctx.auth ctx.content asked).alone store started.clock ctx.nextId
      started.stored = ((serveWrite ctx m.stored [] request).1,
        (serveWrite ctx m.stored [] request).2.stored) := by
    rw [← hending, ← hclock]
    rfl
  rw [hsame] at halone
  refine ⟨n, m', exec_cons_some.mpr ⟨started, ?_, hrun⟩, halone.of_same⟩
  simp only [siteMove, move, hidle]
  rfl

/-! ## Runs -/

/-- What the sequences may still give once a request has been numbered. -/
def drawFrom (next : Sequence → Int) (c : Call) (k : Sequence) : Int :=
  if requestSequence c.request = some k then c.nextId + 1 else next k

/-- Nothing fails, and each number is one its sequence may give. -/
def Drawn : (Sequence → Int) → List Event → Prop
  | _, [] => True
  | next, .tick _ :: events => Drawn next events
  | next, .call c :: events =>
    c.faults = [] ∧ (∀ k ∈ requestSequence c.request, next k ≤ c.nextId) ∧
      Drawn (drawFrom next c) events

/-- Numbers that were ahead of the sequences are ahead of lower ones. -/
theorem Drawn.mono {next next' : Sequence → Int} {events : List Event} (h : Drawn next events)
    (hle : ∀ k, next' k ≤ next k) : Drawn next' events := by
  induction events generalizing next next' with
  | nil => trivial
  | cons e events ih =>
    cases e with
    | tick microseconds => exact ih h hle
    | call c =>
      obtain ⟨hfaults, hnumber, hrest⟩ := h
      refine ⟨hfaults, fun k hk => Int.le_trans (hle k) (hnumber k hk), ih hrest fun k => ?_⟩
      unfold drawFrom
      split
      · exact Int.le_refl _
      · exact hle k

/-- What the calls of a run are answered. -/
def answers (auth : Auth.Env) (content : Content.Env) :
    Service → List Event → List (Except Failure Answer)
  | _, [] => []
  | s, e :: events =>
    let rest := ((serve auth content s e).map fun s' => answers auth content s' events).getD []
    match e with
    | .call c => (serveWrite (s.context auth content c) s.db c.faults c.request).1 :: rest
    | .tick _ => rest

/-- The two are in the same state, with no request under way from this number on. -/
structure Alike (s : Service) (m : Traffic) (r : Nat) : Prop where
  stored : m.stored = s.db
  clock : m.clock = s.clock
  idle : ∀ i, r ≤ i → m.slot i = .idle

theorem result_of_slot {i : Nat} {asked : Asked} {result : Except Failure Answer}
    (h : m.slot i = .ended asked result) : m.result i = some result := by
  unfold Traffic.result
  rw [h]

/-- One request of a run, and the rest of it. -/
theorem alike_call {s s' : Service} {c : Call} {next : Sequence → Int}
    (h : serve auth content s (.call c) = some s') (halike : Alike s m r)
    (hfaults : c.faults = []) (hnext : ∀ k, m.next k ≤ next k)
    (hnumber : ∀ k ∈ requestSequence c.request, next k ≤ c.nextId) :
    ∃ moves m', exec (siteMove auth content) m moves = some m' ∧ Alike s' m' (r + 1) ∧
      (∀ k, m'.next k ≤ drawFrom next c k) ∧ (∀ i, i ≠ r → m'.slot i = m.slot i) ∧
      m'.result r =
        some (serveWrite (s.context auth content c) s.db c.faults c.request).1 := by
  obtain ⟨n, m', hrun, halone⟩ := uninterrupted_write (s.context auth content c) c.request
    (halike.idle r (Nat.le_refl r)) halike.clock
    fun k hk => Int.le_trans (hnext k) (hnumber k hk)
  rw [halike.stored] at halone
  have hserved := (Option.ite_none_left_eq_some.mp h).2
  rw [hfaults] at hserved ⊢
  refine ⟨_, m', hrun, ⟨?_, ?_, fun i hi => ?_⟩, fun k => ?_, halone.others,
    result_of_slot halone.slot⟩
  · rw [← Option.some.inj hserved]
    exact halone.stored
  · rw [← Option.some.inj hserved]
    exact halone.clock.trans halike.clock
  · rw [halone.others i (by omega)]
    exact halike.idle i (by omega)
  -- a sequence is where it was, or behind the number that this call drew
  · unfold drawFrom
    rcases halone.next k with hsame | ⟨hdrawn, change, hchange, hsequence⟩
    · rw [hsame]
      split
      next hk =>
        have hlow := Int.le_trans (hnext k) (hnumber k hk)
        omega
      next => exact hnext k
    · rw [hdrawn]
      rcases hchange with hnone | hsame
      · cases hnone.symm.trans hsequence
      · rw [if_pos (hsame.symm.trans hsequence)]
        exact Int.le_refl _

/-- The simulation, from any pair of alike states: each event of the service is played as moves of
one new request or of the clock. The induction is on the events, and the request's number goes up by
one with each call. -/
theorem serial_from {s s' : Service} {events : List Event}
    (h : exec (serve auth content) s events = some s') (halike : Alike s m r)
    (hdrawn : Drawn m.next events) :
    ∃ moves m', exec (siteMove auth content) m moves = some m' ∧
      m'.stored = s'.db ∧ m'.clock = s'.clock ∧ (∀ i, i < r → m'.slot i = m.slot i) ∧
      ∀ (i : Nat) answer, (answers auth content s events)[i]? = some answer →
        m'.result (r + i) = some answer := by
  induction events generalizing s m r with
  | nil =>
    obtain rfl := Option.some.inj h
    exact ⟨[], m, rfl, halike.stored, halike.clock, fun _ _ => rfl, fun i answer hi => by cases hi⟩
  | cons e events ih =>
    obtain ⟨s₁, hserve, hrest⟩ := exec_cons_some.mp h
    cases e with
    | tick microseconds =>
      let later : Traffic := { m with clock := m.clock + microseconds }
      have hanswers : answers auth content s (.tick microseconds :: events) =
          answers auth content s₁ events := by
        simp only [answers, hserve, Option.map_some, Option.getD_some]
      rw [hanswers]
      obtain rfl := Option.some.inj hserve
      have hlater : Alike { s with clock := s.clock + microseconds } later r :=
        ⟨halike.stored, congrArg (· + microseconds) halike.clock, halike.idle⟩
      obtain ⟨moves, m', hrun, hend⟩ := ih hrest hlater hdrawn
      exact ⟨.tick microseconds :: moves, m', exec_cons_some.mpr ⟨later, rfl, hrun⟩, hend⟩
    | call c =>
      have hanswers : answers auth content s (.call c :: events) =
          (serveWrite (s.context auth content c) s.db c.faults c.request).1 ::
            answers auth content s₁ events := by
        simp only [answers, hserve, Option.map_some, Option.getD_some]
      rw [hanswers]
      obtain ⟨hfaults, hnumber, hdrawn⟩ := hdrawn
      obtain ⟨first, m₁, hfirst, halike₁, hnext, hothers, hresult⟩ :=
        alike_call hserve halike hfaults (fun _ => Int.le_refl _) hnumber
      obtain ⟨moves, m', hrun, hstored, hclock, hslots, hresults⟩ :=
        ih hrest halike₁ (hdrawn.mono hnext)
      refine ⟨first ++ moves, m', exec_append_some.mpr ⟨m₁, hfirst, hrun⟩, hstored, hclock,
        fun i hi => ?_, fun i answer hi => ?_⟩
      · rw [hslots i (by omega)]
        exact hothers i (by omega)
      · cases i with
        | zero =>
          -- The slot of a request that has ended is not touched again.
          rw [← Option.some.inj hi, ← hresult]
          unfold Traffic.result
          rw [Nat.add_zero, hslots r (by omega)]
        | succ i =>
          rw [show r + (i + 1) = r + 1 + i by omega]
          exact hresults i answer hi

/-- **One at a time is a way of overlapping**: a run of `Service` is a run of `Traffic`
that leaves the same database and gives the same answers. -/
theorem serial_refines {s s' : Service} {events : List Event} (hm : m.Fresh)
    (hstored : m.stored = s.db) (hclock : m.clock = s.clock) (hdrawn : Drawn m.next events)
    (h : exec (serve auth content) s events = some s') :
    ∃ moves m', exec (siteMove auth content) m moves = some m' ∧
      m'.stored = s'.db ∧ m'.clock = s'.clock ∧
      ∀ (i : Nat) answer, (answers auth content s events)[i]? = some answer →
        m'.result i = some answer := by
  obtain ⟨moves, m', hrun, hdb, htime, -, hresults⟩ :=
    serial_from h ⟨hstored, hclock, fun i _ => hm.idle i⟩ hdrawn
  refine ⟨moves, m', hrun, hdb, htime, fun i answer hi => ?_⟩
  rw [← Nat.zero_add i]
  exact hresults i answer hi

end Serial

/-- By the key: the URLs are marked seen, and the key is revoked. -/
def keyEvents : List Event :=
  [keyCall .markAllViewed 2, .tick 5, keyCall (.revokeApiKey 1) 2, keyCall .logout 2]

/-- The example, one request at a time. -/
def quietService : Service := ⟨quietSite.stored, 0, 1, []⟩

/-- A run of the example's key requests, played by the interleaved server. -/
theorem key_calls_refined :
    ∃ s, exec (serve Auth.sampleEnv Content.sampleEnv) quietService keyEvents = some s ∧
      ∃ moves m', exec (siteMove Auth.sampleEnv Content.sampleEnv) quietSite moves = some m' ∧
        m'.stored = s.db ∧ m'.clock = s.clock ∧
        ∀ (i : Nat) answer,
          (answers Auth.sampleEnv Content.sampleEnv quietService keyEvents)[i]? = some answer →
            m'.result i = some answer := by
  have hrun : (exec (serve Auth.sampleEnv Content.sampleEnv) quietService keyEvents).map
      (fun _ => true) = some true := by
    decide +kernel
  obtain ⟨s, hs, -⟩ := exec_of_test hrun
  refine ⟨s, hs, serial_refines quietSite_fresh rfl rfl ?_ hs⟩
  refine ⟨rfl, fun k hk => ?_, rfl, fun k hk => ?_, rfl, fun k hk => ?_, trivial⟩
  · cases hk
  · cases hk
  · cases hk

end SarkariWorld.Site.Threads
