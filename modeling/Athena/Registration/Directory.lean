import Athena.Lib.Table
import Athena.Lib.Text

/-!
# The account directory

An account is bound for good to an external identity in a realm.  The directory has three
unique indexes: on the folded username, on the identity with its realm, and on the role of
administrator.  They are fields of the directory, so a row that breaks one cannot be added.
-/

namespace Athena.Registration

open Athena.Lib Option

inductive Provider
  | google
  | solanaWallet
  | development
  deriving DecidableEq

inductive Realm
  | member
  | admin
  deriving DecidableEq

def Realm.administrator : Realm → Bool
  | .member => false
  | .admin => true

structure Identity where
  provider : Provider
  subject : String
  verifiedEmail : String
  realm : Realm
  deriving DecidableEq

/-- What the index on identities compares. -/
structure IdentityKey where
  provider : Provider
  subject : String
  realm : Realm
  deriving DecidableEq

def Identity.key (identity : Identity) : IdentityKey :=
  ⟨identity.provider, identity.subject, identity.realm⟩

def normalizeIdentitySubject (provider : Provider) (subject : String) : Option String :=
  let subject := Text.trimSpace subject
  if subject = "" || subject.toList.any Text.isControl then none
  else match provider with
    | .google => some subject
    | .solanaWallet =>
      if subject.utf8ByteSize < 32 || 44 < subject.utf8ByteSize || !Text.isBase58Key subject
      then none else some subject
    | .development => none

/-- The part of `NormalizeExternalIdentity` that looks at the email. -/
def normalizeVerifiedEmail (identity : Identity) : Option String :=
  let verifiedEmail := Text.trimSpace identity.verifiedEmail
  match identity.provider with
  | .google =>
    if verifiedEmail = "" || verifiedEmail.toList.any Text.isControl then none
    else some verifiedEmail
  | .solanaWallet =>
    if identity.realm ≠ .member || verifiedEmail ≠ "" then none else some verifiedEmail
  | .development => some verifiedEmail

def normalizeExternalIdentity (identity : Identity) : Option Identity := do
  let subject ← normalizeIdentitySubject identity.provider identity.subject
  let verifiedEmail ← normalizeVerifiedEmail identity
  some { identity with subject, verifiedEmail }

theorem normalizeIdentitySubject_idem {provider : Provider} {subject subject' : String}
    (h : normalizeIdentitySubject provider subject = some subject') :
    normalizeIdentitySubject provider subject' = some subject' := by
  have htrim : Text.trimSpace subject = subject' := by
    unfold normalizeIdentitySubject at h
    dsimp only at h
    split at h
    · cases h
    · cases provider with
      | google => exact some.inj h
      | development => cases h
      | solanaWallet =>
        dsimp only at h
        split at h
        · cases h
        · exact some.inj h
  rw [← htrim] at h ⊢
  unfold normalizeIdentitySubject at h ⊢
  rw [Text.trimSpace_trimSpace]
  exact h

theorem normalizeExternalIdentity_subject {identity identity' : Identity}
    (h : normalizeExternalIdentity identity = some identity') :
    normalizeIdentitySubject identity'.provider identity'.subject = some identity'.subject := by
  simp only [normalizeExternalIdentity, bind_eq_bind, bind_eq_some_iff,
    some.injEq] at h
  obtain ⟨subject, hsubject, verifiedEmail, -, rfl⟩ := h
  exact normalizeIdentitySubject_idem hsubject

/-- `Identity.Validate`: the identity is in its canonical form. -/
def Identity.isValid (identity : Identity) : Bool :=
  normalizeExternalIdentity identity = some identity

/-! ## Usernames -/

def isUsernameLetter (c : Char) : Bool :=
  ('a' ≤ c && c ≤ 'z') || ('A' ≤ c && c ≤ 'Z') || ('0' ≤ c && c ≤ '9')

def isHexDigit (c : Char) : Bool :=
  ('0' ≤ c && c ≤ '9') || ('a' ≤ c && c ≤ 'f') || ('A' ≤ c && c ≤ 'F')

def isWalletAddress : List Char → Bool
  | '0' :: x :: rest => (x = 'x' || x = 'X') && rest.length = 40 && rest.all isHexDigit
  | _ => false

/-- `ValidateUsername`.  The blocklist has the folded names that are reserved. -/
def validateUsername (blocklist : List String) (username : String) (administrator : Bool) : Bool :=
  3 ≤ username.utf8ByteSize && username.utf8ByteSize ≤ 42 &&
    username.toList.all (fun c => isUsernameLetter c || c = '.' || c = '-') &&
    username.toList.any isUsernameLetter && !isWalletAddress username.toList &&
    (!blocklist.contains (String.ofList ((Text.toLower username).toList.filter fun c =>
        c ≠ '.' && c ≠ '-')) ||
      (administrator && username = "admin"))

/-! ## Accounts -/

/-- A row of `athena_account`.  An account for development has no subject. -/
structure Account where
  id : ℕ
  username : String
  provider : Provider
  subject : Option String
  verifiedEmail : String
  administrator : Bool
  deriving DecidableEq

namespace Account

def realm (a : Account) : Realm := if a.administrator then .admin else .member

def key (a : Account) : Option IdentityKey := a.subject.map fun subject =>
  ⟨a.provider, subject, a.realm⟩

def ofRegistration (id : ℕ) (username : String) (identity : Identity) : Account where
  id := id
  username := username
  provider := identity.provider
  subject := some identity.subject
  verifiedEmail := identity.verifiedEmail
  administrator := identity.realm.administrator

/-- The columns that never change. -/
def Same (a b : Account) : Prop :=
  b.id = a.id ∧ b.username = a.username ∧ b.key = a.key ∧ b.administrator = a.administrator

theorem Same.refl (a : Account) : a.Same a := ⟨rfl, rfl, rfl, rfl⟩

theorem Same.trans {a b c : Account} (h : a.Same b) (h' : b.Same c) : a.Same c :=
  ⟨h'.1.trans h.1, h'.2.1.trans h.2.1, h'.2.2.1.trans h.2.2.1, h'.2.2.2.trans h.2.2.2⟩

end Account

/-- The accounts, with their unique indexes. -/
structure Directory where
  accounts : Table Account.id := .empty
  usernames : accounts.Unique (fun a => Text.toLower a.username) := by exact Table.unique_empty
  identities : accounts.UniqueAmong (fun a => a.key.isSome) Account.key := by
    exact Table.uniqueAmong_empty
  administrators : accounts.UniqueAmong (fun a => a.administrator) (fun _ => ()) := by
    exact Table.uniqueAmong_empty

namespace Directory

/-- A row that breaks no index. -/
def Admits (d : Directory) (a : Account) : Prop :=
  ∀ b ∈ d.accounts.rows, b.id ≠ a.id ∧ Text.toLower b.username ≠ Text.toLower a.username ∧
    (a.key.isSome → b.key ≠ a.key) ∧ ¬(a.administrator ∧ b.administrator)

instance (d : Directory) (a : Account) : Decidable (d.Admits a) :=
  inferInstanceAs (Decidable (∀ b ∈ d.accounts.rows, _))

def insert? (d : Directory) (a : Account) : Option Directory :=
  if h : d.Admits a then
    some
      { accounts := d.accounts.upsert a
        usernames := d.usernames.upsert fun b hb _ => (h b hb).2.1
        identities := d.identities.upsert fun hsome b hb _ _ => (h b hb).2.2.1 hsome
        administrators := d.administrators.upsert fun hadmin b hb _ hadmin' =>
          absurd ⟨hadmin, hadmin'⟩ (h b hb).2.2.2 }
  else none

theorem mem_insert? {d d' : Directory} {a b : Account} (h : d.insert? a = some d') :
    b ∈ d'.accounts ↔ b ∈ d.accounts ∨ b = a := by
  unfold insert? at h
  split at h
  · rename_i hadmits
    obtain rfl := some.inj h
    rw [Table.mem_upsert]
    constructor
    · rintro (rfl | ⟨hb, -⟩)
      · exact .inr rfl
      · exact .inl hb
    · rintro (hb | rfl)
      · exact .inr ⟨hb, (hadmits b hb).1⟩
      · exact .inl rfl
  · cases h

def byIdentity (d : Directory) (key : IdentityKey) : Option Account :=
  d.accounts.rows.find? fun a => a.key = some key

theorem byIdentity_eq_some {d : Directory} {key : IdentityKey} {a : Account}
    (h : d.byIdentity key = some a) : a ∈ d.accounts ∧ a.key = some key :=
  ⟨List.mem_of_find?_eq_some h, by simpa using List.find?_some h⟩

def loggedIn (id : ℕ) (identity : Identity) (a : Account) : Account :=
  if a.id = id && a.key = some identity.key then { a with verifiedEmail := identity.verifiedEmail }
  else a

theorem same_loggedIn (id : ℕ) (identity : Identity) (a : Account) :
    a.Same (loggedIn id identity a) := by
  unfold loggedIn
  split
  · exact ⟨rfl, rfl, rfl, rfl⟩
  · exact .refl a

def recordLogin (d : Directory) (id : ℕ) (identity : Identity) : Directory where
  accounts := d.accounts.update (loggedIn id identity) fun a => (same_loggedIn id identity a).1
  usernames := d.usernames.update fun a => congrArg Text.toLower (same_loggedIn id identity a).2.1
  identities := d.identities.update
    (fun a h => (same_loggedIn id identity a).2.2.1 ▸ h) fun a =>
      (same_loggedIn id identity a).2.2.1
  administrators := d.administrators.update
    (fun a h => (same_loggedIn id identity a).2.2.2 ▸ h) fun _ => rfl

/-- Accounts are added, and keep what never changes. -/
def Extends (d d' : Directory) : Prop := ∀ a ∈ d.accounts, ∃ a' ∈ d'.accounts, a.Same a'

theorem Extends.refl (d : Directory) : d.Extends d := fun a ha => ⟨a, ha, .refl a⟩

theorem extends_insert? {d d' : Directory} {a : Account} (h : d.insert? a = some d') :
    d.Extends d' := fun b hb => ⟨b, (mem_insert? h).mpr (.inl hb), .refl b⟩

theorem extends_recordLogin (d : Directory) (id : ℕ) (identity : Identity) :
    d.Extends (d.recordLogin id identity) := by
  intro a ha
  refine ⟨loggedIn id identity a, ?_, same_loggedIn id identity a⟩
  simp only [recordLogin, Table.mem_update]
  exact ⟨a, ha, rfl⟩

end Directory

end Athena.Registration
