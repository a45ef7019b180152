import SarkariWorld.Errors
import SarkariWorld.Lib.Table
import SarkariWorld.Lib.Text

/-!
# What the database and its driver do

The facts about Postgres and SQLAlchemy that the tables of the model rest on:
how a query for one row answers, and which values a column refuses.

A width is counted in characters. `varchar(n)` cuts excess blanks and refuses any other
excess; `text` and `jsonb` have no width and refuse U+0000 alone. What else a commit can
be refused for, a column that has to be unique, is part of the tables themselves
(`Lib.Table`).
-/

namespace SarkariWorld

open Lib

/-- The range of Postgres' `integer`. -/
def Int4 (n : Int) : Prop := -2147483648 ≤ n ∧ n < 2147483648

instance (n : Int) : Decidable (Int4 n) := inferInstanceAs (Decidable (_ ∧ _))

/-- Postgres refuses U+0000 in `text` and in `jsonb`. -/
def Storable (t : Text) : Prop := '\x00' ∉ t

instance (t : Text) : Decidable (Storable t) := inferInstanceAs (Decidable (¬ _))

/-- What Postgres stores of a text in a `varchar(n)` column: excess characters are cut if
all of them are blanks. A text with any other excess is refused, and stays too long here,
so that the column's check of its width refuses it. -/
def varchar (n : Nat) (t : Text) : Text := if (t.drop n).all (· == ' ') then t.take n else t

/-- A `varchar(n)` column takes the text. -/
def Takes (n : Nat) (t : Text) : Prop := (varchar n t).length ≤ n ∧ Storable t

instance (n : Nat) (t : Text) : Decidable (Takes n t) := inferInstanceAs (Decidable (_ ∧ _))

theorem varchar_of_le {n : Nat} {t : Text} (h : t.length ≤ n) : varchar n t = t := by
  rw [varchar, List.drop_eq_nil_of_le h, List.all_nil, if_pos rfl, List.take_of_length_le h]

/-- Nothing but blanks is cut, so U+0000 is stored exactly if it was there. -/
theorem storable_varchar {n : Nat} {t : Text} : Storable (varchar n t) ↔ Storable t := by
  unfold varchar
  split
  next hblank =>
    refine not_congr ⟨fun h => List.mem_of_mem_take h, fun h => ?_⟩
    rw [← List.take_append_drop n t, List.mem_append] at h
    refine h.resolve_right fun hmem => ?_
    exact absurd (List.all_eq_true.mp hblank _ hmem) (by decide)
  next => exact Iff.rfl

variable {ρ : Type}

/-- `result.scalar_one_or_none()`. -/
def scalarOneOrNone (rows : List ρ) : Except PyError (Option ρ) :=
  match rows with
  | [] => .ok none
  | [x] => .ok (some x)
  | _ => .error .multipleResultsFound

/-- On a unique column `scalar_one_or_none` never raises: it is a lookup. -/
theorem scalarOneOrNone_whereEq {κ : Type} [DecidableEq κ] {col : ρ → Option κ}
    {rows : List ρ} (hu : UniqueCol col rows) (k : κ) :
    scalarOneOrNone (whereEq col k rows) = .ok (lookup col k rows) := by
  have hlen := whereEq_length_le_one (k := k) hu
  unfold lookup
  match hw : whereEq col k rows with
  | [] => rfl
  | [x] => rfl
  | x :: y :: rest => rw [hw] at hlen; simp at hlen

end SarkariWorld
