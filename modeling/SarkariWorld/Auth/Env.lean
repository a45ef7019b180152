import SarkariWorld.Dates
import SarkariWorld.Errors
import SarkariWorld.Lib.Text

/-!
# The libraries the authentication code calls

bcrypt, PyJWT and `str.lower` are parameters of everything below: an `Env` is
one choice of them, with the signing key fixed. What the service relies on is
stated apart, as `BcryptLaws` and `JwtLaws`, and only the results that need a
law assume it.

`sampleEnv` is a concrete environment that obeys both. It stands in for the
libraries wherever a result is evaluated on a fixed input.

The laws are the documented behaviour of the libraries and no more: a hash verifies the
password it was made of and no other, within the 72 bytes bcrypt looks at; a token decodes
to what was encoded, under the same key and before it expires. Beyond 72 bytes, and for a
stored text that is no hash, bcrypt raises.

An environment is a structure and not a class, so that a theorem names the one it is
about, and two environments can be compared. The running time of `checkpw`, which is what
bcrypt is chosen for, has no place in it.
-/

namespace SarkariWorld.Auth

open SarkariWorld.Lib

/-- The claims `mint_session_token` signs. -/
structure SessionPayload where
  sub : Text
  email : Text
  iat : Int
  exp : Int
  deriving DecidableEq, Repr

/-- A decoded payload, as `payload.get` sees it: `none` where the claim is
absent or, for `iat`, not an `int`. -/
structure JwtPayload where
  sub : Option Text
  email : Option Text
  iat : Option Int
  deriving DecidableEq, Repr

/-- The libraries: one function for each call the service makes, with the signing key inside those
of PyJWT. -/
structure Env where
  /-- `str.lower`. -/
  lower : Text → Text
  /-- `bcrypt.hashpw`, on a password and a salt. -/
  hashpw : Text → Text → Text
  /-- `bcrypt.checkpw`, on a password and a stored hash. -/
  checkpw : Text → Text → Except PyError Bool
  /-- Whether bcrypt can parse a stored hash. -/
  hashReadable : Text → Bool
  /-- The salt `_DUMMY_HASH` was made with. -/
  dummySalt : Text
  /-- `jwt.encode` under the session secret. -/
  jwtEncode : SessionPayload → Text
  /-- `jwt.decode` under the session secret, at a time in microseconds; `none`
  where it raises a `PyJWTError`. -/
  jwtDecode : Text → Nat → Option JwtPayload

/-- bcrypt 5. A comparison raises on a password of more than 72 bytes and on a
hash it cannot parse, and is otherwise exact. -/
structure BcryptLaws (env : Env) : Prop where
  raises : ∀ c h, (∃ e, env.checkpw c h = .error e) ↔
    72 < utf8Len c ∨ env.hashReadable h = false
  readable_hashpw : ∀ s salt, env.hashReadable (env.hashpw s salt) = true
  hashpw_ne_nil : ∀ s salt, env.hashpw s salt ≠ []
  exact : ∀ c s salt, utf8Len c ≤ 72 → env.checkpw c (env.hashpw s salt) = .ok (decide (c = s))

/-- PyJWT with HS256: a token the service signed decodes to its claims from its
`iat` on and strictly before its `exp`; any other time raises. -/
structure JwtLaws (env : Env) : Prop where
  decode_encode : ∀ p now, env.jwtDecode (env.jwtEncode p) now =
    if p.iat * second ≤ now ∧ now < p.exp * second then some ⟨some p.sub, some p.email, some p.iat⟩
    else none
  encode_ne_nil : ∀ p, env.jwtEncode p ≠ []

/-! ## A concrete environment -/

/-- Split a text at its first `'.'`. -/
private def splitDot : Text → Text × Text
  | [] => ([], [])
  | c :: cs => if c = '.' then ([], cs) else (c :: (splitDot cs).1, (splitDot cs).2)

/-- The text before the first dot is found as it was written. -/
private theorem splitDot_append {t : Text} (rest : Text) (h : ∀ c ∈ t, c ≠ '.') :
    splitDot (t ++ '.' :: rest) = (t, rest) := by
  induction t with
  | nil => simp [splitDot]
  | cons c t ih =>
    have hc : c ≠ '.' := h c (List.mem_cons_self ..)
    have hrest := ih fun d hd => h d (List.mem_cons_of_mem _ hd)
    rw [List.cons_append, splitDot, if_neg hc, hrest]

private theorem dot_not_mem_strInt (n : Int) : ∀ c ∈ strInt n, c ≠ '.' := by
  have hdigits : ∀ c ∈ Nat.toDigits 10 n.natAbs, c ≠ '.' := by
    intro c hc he
    have hd := Nat.isDigit_of_mem_toDigits (by omega) (by omega) hc
    rw [he] at hd
    exact absurd hd (by decide)
  intro c hc
  unfold strInt at hc
  split at hc
  next =>
    rcases List.mem_cons.mp hc with rfl | hc
    · decide
    · exact hdigits c hc
  next => exact hdigits c hc

/-- Dot-separated numbers in front of the two texts; the third number says where
the subject ends. -/
private def sampleEncode (p : SessionPayload) : Text :=
  strInt p.iat ++ '.' :: (strInt p.exp ++ '.' :: (strInt p.sub.length ++ '.' :: (p.sub ++ p.email)))

/-- The sample decoder reads the fields back, checks the expiry and refuses everything else. -/
private def sampleDecode (t : Text) (now : Nat) : Option JwtPayload :=
  let (iat, t) := splitDot t
  let (exp, t) := splitDot t
  let (len, t) := splitDot t
  match parseInt iat, parseInt exp, parseInt len with
  | some iat, some exp, some len =>
    if iat * second ≤ now ∧ now < exp * second then
      some ⟨some (t.take len.toNat), some (t.drop len.toNat), some iat⟩
    else none
  | _, _, _ => none

/-- Plain comparison for bcrypt (with its length limit), unsigned texts for
tokens. -/
def sampleEnv : Env where
  lower := fun t => t
  hashpw := fun s _ => '$' :: s
  checkpw := fun c h => if 72 < utf8Len c then .error .valueError else .ok (decide ('$' :: c = h))
  hashReadable := fun _ => true
  dummySalt := []
  jwtEncode := sampleEncode
  jwtDecode := sampleDecode

/-- The sample bcrypt obeys the laws: its hash is the password itself, with a mark in front. -/
theorem sampleEnv_bcrypt : BcryptLaws sampleEnv where
  raises := by
    intro c h
    show (∃ e, (if 72 < utf8Len c then Except.error PyError.valueError
      else .ok (decide ('$' :: c = h))) = .error e) ↔ 72 < utf8Len c ∨ true = false
    by_cases hlen : 72 < utf8Len c
    · simp [hlen]
    · simp [hlen]
  readable_hashpw := fun _ _ => rfl
  hashpw_ne_nil := fun s _ => List.cons_ne_nil '$' s
  exact := by
    intro c s salt hlen
    show (if 72 < utf8Len c then _ else _) = _
    rw [if_neg (by omega)]
    simp [sampleEnv]

/-- So does the sample PyJWT: its tokens carry their fields in clear. -/
theorem sampleEnv_jwt : JwtLaws sampleEnv where
  decode_encode := by
    intro p now
    show sampleDecode (sampleEncode p) now = _
    simp only [sampleDecode, sampleEncode, splitDot_append _ (dot_not_mem_strInt _),
      parseInt_strInt, Int.toNat_natCast, List.take_left, List.drop_left]
  encode_ne_nil := by
    intro p
    show sampleEncode p ≠ []
    simp [sampleEncode]

end SarkariWorld.Auth
