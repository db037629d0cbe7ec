import Athena.Accounts.Revisions

/-!
# The expiry of an API Key

A request names a lifetime in seconds.  The codec multiplies it into a duration in nanoseconds,
which is a 64-bit integer and wraps around, and adds that to the time of issue.
-/

namespace Athena.Accounts

open Athena.Lib Sample

/-- `time.Duration(seconds) * time.Second`, on 64-bit integers. -/
def duration (seconds : ℤ) : ℤ := (seconds * 1000000000).bmod (2 ^ 64)

/-- `Unix` of a time in nanoseconds. -/
def unix (t : ℤ) : ℤ := t / 1000000000

/-- The times among the registered claims of a bearer. -/
structure Claims where
  issuedAt : ℤ
  expiresAt : Option ℤ

def JWTCodec.issue (jti : String) (expiresIn now : ℤ) : Claims × Token :=
  if 0 < expiresIn then
    let expiresAt := unix (now + duration expiresIn)
    (⟨unix now, some expiresAt⟩, ⟨"", jti, unix now, expiresAt⟩)
  else (⟨unix now, none⟩, ⟨"", jti, unix now, 0⟩)

/-- `CreateToken`, for the display identifier and the JTI that it draws, while nobody else works
on the account: what the bearer claims, and what the store holds then. -/
def createToken (db : Database) (access : Access) (tokens : List Token) (account : ℕ)
    (id jti : String) (expiresIn now : ℤ) : Option (Claims × Database) :=
  if access.loginEnabled ∧ access.apiKeyEnabled ∧ 0 ≤ expiresIn ∧ isValidAPIKeyDisplayID id ∧
      ¬tokens.any fun t => t.id = id then
    let (claims, metadata) := JWTCodec.issue jti expiresIn now
    match createAPIKeyMetadata db account { metadata with id := id } with
    | .ok db => some (claims, db)
    | .error _ => none
  else none

/-- What the steps of `issueAPIKey` are answered while nobody else works on the account. -/
def answers (db : Database) (tokens : List Token) (bearer jti : String) (now : ℤ) :
    (c : Call) → c.Reply
  | .record _ => true
  | .lockRecord .. => tokens
  | .issue _ expiresIn =>
    let metadata := (JWTCodec.issue jti expiresIn now).2
    some ⟨bearer, metadata.jti, metadata.issuedAt, metadata.expiresAt⟩
  | .createAPIKeyMetadata account token => (createAPIKeyMetadata db account token).map fun _ => ()
  | .registerAccess _ access => access
  | .readAccess _ => none
  | .getAccountAccess _ | .updateAccountAccess .. | .deleteAPIKeyMetadata .. => .error .unavailable
  | .lockUpdates _ | .unlockUpdates _ | .publishAccess .. | .unlockRecord .. => ()

/-- `createToken` succeeds exactly when the credential manager hands out the bearer. -/
theorem createToken_isSome {db : Database} {access : Access} {tokens : List Token} {account : ℕ}
    {id bearer jti : String} {expiresIn now : ℤ}
    (hallowed : access.loginEnabled ∧ access.apiKeyEnabled ∧ 0 ≤ expiresIn) (turn : ℕ) :
    (createToken db access tokens account id jti expiresIn now).isSome ↔
      (CredentialManager.issueAPIKey turn account id expiresIn).eval
        (answers db tokens bearer jti now) = .ok bearer := by
  obtain ⟨hlogin, hkey, hpos⟩ := hallowed
  have hask (c : Call) : (Program.ask c : Handler c.Reply).eval (answers db tokens bearer jti now) =
      .ok (answers db tokens bearer jti now c) := rfl
  simp only [CredentialManager.issueAPIKey, Handler.ask, Handler.require, Program.eval_bind,
    Program.eval_ofExcept, hask, bind_ok, answers, createToken, hlogin, hkey, hpos, true_and]
  by_cases hid : isValidAPIKeyDisplayID id
  · by_cases hnew : tokens.any fun t => t.id = id
    · simp [hid, hnew, ensure_of, Program.eval_bind, hask, Program.eval]
    · simp only [hid, hnew, ensure_of, bind_ok, Bool.false_eq_true, not_false_eq_true, if_true,
        and_self, if_false, Program.eval_bind, hask, answers]
      cases createAPIKeyMetadata db account _ with
      | ok => exact iff_of_true rfl rfl
      | error => exact iff_of_false Bool.false_ne_true fun h => by cases h
  · simp [hid, ensure, bind, Except.bind]

/-- The bearer expires the given number of seconds after the second of its issue, and so does
the row of its key. -/
structure Lasts (account : ℕ) (id jti : String) (seconds now : ℤ) (r : Claims × Database) :
    Prop where
  claimed : r.1.expiresAt = some (unix now + seconds)
  later : r.1.issuedAt < unix now + seconds
  stored : ∃ token ∈ r.2.tokensOf account, token.id = id ∧ token.jti = jti ∧
    token.issuedAt = r.1.issuedAt ∧ some token.expiresAt = r.1.expiresAt

theorem unix_add_duration (now : ℤ) {seconds : ℤ} (hpos : 0 < seconds) :
    unix (now + duration seconds) = unix now + seconds ↔ seconds ≤ 9223372036 := by
  unfold unix duration Int.bmod
  dsimp only
  split <;> omega

/-- The lifetime of a key that is issued is the one asked for exactly when the duration does not
wrap around. -/
theorem lasts_iff_fits {db : Database} {access : Access} {tokens : List Token} {account : ℕ}
    {id jti : String} {expiresIn now : ℤ} {r : Claims × Database} (hpos : 0 < expiresIn)
    (h : createToken db access tokens account id jti expiresIn now = some r) :
    Lasts account id jti expiresIn now r ↔ expiresIn ≤ 9223372036 := by
  simp only [createToken, JWTCodec.issue, hpos, if_true] at h
  split at h
  on_goal 2 => cases h
  split at h
  · rename_i hok
    obtain rfl := Option.some.inj h
    obtain ⟨-, hrow, -⟩ := createAPIKeyMetadata_ok hok
    have hexact := unix_add_duration now hpos
    constructor
    · intro hlasts
      exact hexact.mp (Option.some.inj hlasts.claimed)
    · intro hfits
      refine ⟨congrArg some (hexact.mpr hfits), ?_, _, mem_tokensOf.mpr hrow, rfl, rfl, rfl, rfl⟩
      exact Int.lt_add_of_pos_right _ hpos
  · cases h

theorem lasts_iff_fits_sample : ∃ r, createToken Sample.database (Sample.access true 1) [] 1 "key"
    "jti" 3600 1700000000000000000 = some r ∧ Lasts 1 "key" "jti" 3600 1700000000000000000 r := by
  obtain ⟨r, hr⟩ := Option.isSome_iff_exists.mp (show (createToken database
    (access true 1) [] 1 "key" "jti" 3600 1700000000000000000).isSome by decide +kernel)
  exact ⟨r, hr, (lasts_iff_fits (by decide) hr).mpr (by decide)⟩

/-- A key that is asked for more than five hundred years expires after an hour. -/
theorem long_lifetime_is_an_hour : ∃ r, createToken Sample.database (Sample.access true 1) [] 1
    "key" "jti" 18446747674 1700000000000000000 = some r ∧ r.1.issuedAt = 1700000000 ∧
    r.1.expiresAt = some 1700003600 ∧
    ¬Lasts 1 "key" "jti" 18446747674 1700000000000000000 r := by
  obtain ⟨r, hr, htimes⟩ := (Option.any_eq_true _ _).mp (show (createToken database
    (access true 1) [] 1 "key" "jti" 18446747674 1700000000000000000).any
      fun r => r.1.issuedAt = 1700000000 ∧ r.1.expiresAt = some 1700003600 by decide +kernel)
  obtain ⟨hissued, hexpires⟩ := of_decide_eq_true htimes
  refine ⟨r, hr, hissued, hexpires, fun hlasts => ?_⟩
  exact absurd (hexpires.symm.trans hlasts.claimed) (by decide)

end Athena.Accounts
