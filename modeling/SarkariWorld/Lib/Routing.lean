import Mathlib.Data.List.TakeWhile
import SarkariWorld.Lib.Text

/-!
# Routers

A router keeps its routes in the order of their declaration and hands a request to the
first one of its method whose path matches. A path is literal text with parameters in
braces: `/{user}/files`. A parameter stands for one segment, `[^/]+`, and takes all of it;
so in a path whose parameters end where their segments do, this is what a regular
expression finds.

`dispatch_mounted` lets a prefix be forgotten. `slashes_of_match` tells apart paths of
different depths.

Matching is structural on the pieces of a path, and a parameter takes as much as it can.
The parameters of a route are returned in the order of the path, with their names.
-/

namespace SarkariWorld.Lib

/-! ## Paths -/

/-- A piece of a path: a character, or a parameter for a segment. -/
inductive Piece where
  | char (c : Char)
  | param (name : Text)
  deriving DecidableEq, Repr

/-- The pieces of a path, from inside a parameter's braces or outside. -/
def compileFrom : Option Text → Text → List Piece
  | _, [] => []
  | none, c :: rest =>
    if c = '\x7b' then compileFrom (some []) rest else .char c :: compileFrom none rest
  | some name, c :: rest =>
    if c = '\x7d' then .param name :: compileFrom none rest
    else compileFrom (some (name ++ [c])) rest

/-- The pieces of a path. -/
def compilePath (path : Text) : List Piece := compileFrom none path

/-- The parameters of a request's path, by name. -/
abbrev Params := List (Text × Text)

/-- The parameters a path gives to the pieces, if it matches them. -/
def matchPieces : List Piece → Text → Option Params
  | [], [] => some []
  | [], _ :: _ => none
  | .char _ :: _, [] => none
  | .char c :: pieces, d :: path => if c = d then matchPieces pieces path else none
  | .param name :: pieces, path =>
    if path.takeWhile (· ≠ '/') = [] then none
    else
      (matchPieces pieces (path.dropWhile (· ≠ '/'))).map
        ((name, path.takeWhile (· ≠ '/')) :: ·)

variable {pieces : List Piece} {path : Text} {params : Params}

theorem compilePath_append {p : Text} (h : '\x7b' ∉ p) (q : Text) :
    compilePath (p ++ q) = p.map .char ++ compilePath q := by
  induction p with
  | nil => rfl
  | cons c p ih =>
    rw [List.mem_cons, not_or] at h
    show (if c = '\x7b' then _ else _) = _
    rw [if_neg (Ne.symm h.1)]
    exact congrArg _ (ih h.2)

/-- Literal text matches itself, and no more. -/
theorem matchPieces_append (p : Text) (pieces : List Piece) (path : Text) :
    matchPieces (p.map .char ++ pieces) (p ++ path) = matchPieces pieces path := by
  induction p with
  | nil => rfl
  | cons c p ih =>
    show (if c = c then matchPieces (p.map .char ++ pieces) (p ++ path) else none) = _
    rw [if_pos rfl, ih]

/-- A path without parameters matches itself only. -/
theorem matchPieces_literal (p path : Text) :
    matchPieces (p.map .char) path = if path = p then some [] else none := by
  induction p generalizing path with
  | nil => cases path <;> rfl
  | cons c p ih =>
    cases path with
    | nil => rfl
    | cons d path =>
      show (if c = d then matchPieces (p.map .char) path else none) = _
      by_cases hc : c = d
      · rw [if_pos hc, ih, hc]
        simp
      · rw [if_neg hc, if_neg fun h => hc (List.cons.inj h).1.symm]

/-- A path that consists of one parameter. -/
theorem matchPieces_param {name segment : Text} (hne : segment ≠ [])
    (hslash : ∀ c ∈ segment, c ≠ '/') :
    matchPieces [.param name] segment = some [(name, segment)] := by
  have htake : segment.takeWhile (· ≠ '/') = segment :=
    List.takeWhile_eq_self_iff.mpr fun c hc => decide_eq_true (hslash c hc)
  have hdrop : segment.dropWhile (· ≠ '/') = [] :=
    List.dropWhile_eq_nil_iff.mpr fun c hc => decide_eq_true (hslash c hc)
  show (if segment.takeWhile (· ≠ '/') = [] then none else _) = _
  rw [htake, hdrop, if_neg hne]
  rfl

/-- Parameters hold no slash, so a path matches only paths of its own depth. -/
theorem slashes_of_match (h : matchPieces pieces path = some params) :
    path.count '/' = pieces.count (.char '/') := by
  induction pieces generalizing path params with
  | nil =>
    cases path with
    | nil => rfl
    | cons d path => cases h
  | cons piece pieces ih =>
    cases piece with
    | char c =>
      cases path with
      | nil => cases h
      | cons d path =>
        obtain ⟨rfl, hrest⟩ := Option.ite_none_right_eq_some.mp h
        rw [List.count_cons, List.count_cons, ih hrest]
        simp
    | param name =>
      obtain ⟨-, hrest⟩ := Option.ite_none_left_eq_some.mp h
      obtain ⟨rest, hrest, -⟩ := Option.map_eq_some_iff.mp hrest
      -- A parameter stands for no slash.
      have hnone : (path.takeWhile (· ≠ '/')).count '/' = 0 := by
        rw [List.count_eq_zero]
        intro hmem
        have hother := List.mem_takeWhile_imp (p := (· ≠ '/')) hmem
        exact of_decide_eq_true hother rfl
      rw [List.count_cons_of_ne (by simp), ← ih hrest]
      calc path.count '/'
          = (path.takeWhile (· ≠ '/') ++ path.dropWhile (· ≠ '/')).count '/' := by
            rw [List.takeWhile_append_dropWhile]
        _ = (path.dropWhile (· ≠ '/')).count '/' := by
            rw [List.count_append, hnone, Nat.zero_add]

/-! ## Routes -/

variable {μ ε : Type} [DecidableEq μ]

/-- A route: a method, a path and what serves it. -/
structure Route (μ ε : Type) where
  method : μ
  path : Text
  endpoint : ε

/-- `include_router(…, prefix=…)`, for one route. -/
def Route.mounted (before : Text) (r : Route μ ε) : Route μ ε := { r with path := before ++ r.path }

/-- The endpoint, if the route takes the request, and what its parameters are. -/
def Route.takes (r : Route μ ε) (method : μ) (path : Text) : Option (ε × Params) :=
  if r.method = method then (matchPieces (compilePath r.path) path).map (r.endpoint, ·) else none

/-- The first route that takes the request. -/
def dispatch (routes : List (Route μ ε)) (method : μ) (path : Text) : Option (ε × Params) :=
  routes.findSome? (·.takes method path)

variable {r : Route μ ε} {routes rest : List (Route μ ε)} {method : μ}

/-- A route under a prefix takes what it would take without. -/
theorem mounted_takes {p : Text} (h : '\x7b' ∉ p) :
    (r.mounted p).takes method (p ++ path) = r.takes method path := by
  unfold Route.takes Route.mounted
  rw [compilePath_append h, matchPieces_append]

/-- **A prefix the request shares with all routes can be forgotten.** -/
theorem dispatch_mounted {p : Text} (h : '\x7b' ∉ p) :
    dispatch (routes.map (Route.mounted p)) method (p ++ path) = dispatch routes method path := by
  induction routes with
  | nil => rfl
  | cons r routes ih =>
    unfold dispatch at ih ⊢
    rw [List.map_cons, List.findSome?_cons, List.findSome?_cons, mounted_takes h, ih]

/-- A route that does not take the request is passed over. -/
theorem dispatch_cons_of_none (h : r.takes method path = none) :
    dispatch (r :: rest) method path = dispatch rest method path := by
  unfold dispatch
  rw [List.findSome?_cons, h]

theorem dispatch_cons_of_some {found : ε × Params} (h : r.takes method path = some found) :
    dispatch (r :: rest) method path = some found := by
  unfold dispatch
  rw [List.findSome?_cons, h]

/-- Routes that do not take the request are passed over. -/
theorem dispatch_append_of_none (h : dispatch routes method path = none) :
    dispatch (routes ++ rest) method path = dispatch rest method path := by
  unfold dispatch at h ⊢
  rw [List.findSome?_append, h, Option.none_or]

/-- Routes that come later do not change what earlier ones serve. -/
theorem dispatch_append_of_some {found : ε × Params}
    (h : dispatch routes method path = some found) :
    dispatch (routes ++ rest) method path = some found := by
  unfold dispatch at h ⊢
  rw [List.findSome?_append, h, Option.some_or]

/-- What takes the request is one of the routes, for its method. -/
theorem dispatch_mem {found : ε × Params} (h : dispatch routes method path = some found) :
    ∃ r ∈ routes, r.method = method ∧ r.endpoint = found.1 := by
  obtain ⟨r, hr, htakes⟩ := List.exists_of_findSome?_eq_some h
  obtain ⟨hmethod, hmatch⟩ := Option.ite_none_right_eq_some.mp htakes
  obtain ⟨params, -, rfl⟩ := Option.map_eq_some_iff.mp hmatch
  exact ⟨r, hr, hmethod, rfl⟩

/-- Routes of another depth do not take the request. -/
theorem dispatch_none_of_slashes
    (h : ∀ r ∈ routes, (compilePath r.path).count (.char '/') ≠ path.count '/') :
    dispatch routes method path = none := by
  refine List.findSome?_eq_none_iff.mpr fun r hr => ?_
  unfold Route.takes
  split
  next =>
    rw [Option.map_eq_none_iff, Option.eq_none_iff_forall_ne_some]
    intro params hmatch
    exact h r hr (slashes_of_match hmatch).symm
  next => rfl

end SarkariWorld.Lib
