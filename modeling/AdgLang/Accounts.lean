import AdgLang.Interleaving
import AdgLang.PortalTables
/-!
# Accounts — the tables of the accounts and the statements that write them

E-mail verifications, the challenges of passkeys, accounts with their passkeys and sessions, and requests to erase an
identity.  `Command.apply` gives the tables after a statement or a batch, nothing where a reference is violated; what it
gives stands if the keys of the tables allow it (`Store.Keys`), and is rolled back otherwise.  A profile is held in the
clear, and the hashes are functions that the deployment chooses.
-/
namespace Adg
namespace Accounts

open Portal (isUuid Uuid)

/-! ## Rows -/

/-- A profile that `validateAccountProfile` accepted; `details` are its fields but the address. -/
structure Profile where
  email : Text
  details : Text
deriving DecidableEq

structure Consent where
  identityStorage : Bool
  futureContact : Bool
  discussionNotifications : Bool
deriving DecidableEq

structure Verification where
  id : Text
  emailHash : Text
  requestFingerprint : Text
  codeHash : Text
  attempts : Nat
  expiresAt : Nat
  resendAfter : Nat
  verifiedAt : Option Nat
  verificationTokenHash : Option Text
  tokenExpiresAt : Option Nat
  reservedAt : Option Nat
  reservationId : Option Text
  consumedAt : Option Nat
  createdAt : Nat
deriving DecidableEq

inductive ChallengeKind
  | registration | authentication
deriving DecidableEq

structure Challenge where
  id : Text
  challenge : Text
  kind : ChallengeKind
  userId : Option Text
  profile : Option Profile
  consent : Option Consent
  emailVerificationId : Option Text
  verifiedEmailHash : Option Text
  expiresAt : Nat
deriving DecidableEq

/-- An account; `profile` is nothing once the identity was erased. -/
structure User where
  id : Text
  profile : Option Profile
  consent : Consent
  verifiedEmailHash : Option Text
deriving DecidableEq

structure Passkey where
  credentialId : Text
  userId : Text
  publicKey : Text
  counter : Nat
deriving DecidableEq

structure Session where
  tokenHash : Text
  userId : Text
  expiresAt : Nat
deriving DecidableEq

inductive ErasureStatus
  | pending | completed
deriving DecidableEq

structure Erasure where
  id : Text
  userId : Text
  status : ErasureStatus
  requestedAt : Nat
  eligibleAfter : Nat
deriving DecidableEq

/-- A reservation that was made: the verification, the challenge that reserved it and the address that was verified. -/
structure Reservation where
  verificationId : Text
  challengeId : Text
  emailHash : Text
deriving DecidableEq

/-- The tables, with the identifiers drawn so far and the reservations made so far. -/
structure Store where
  verifications : List Verification
  challenges : List Challenge
  users : List User
  passkeys : List Passkey
  sessions : List Session
  erasures : List Erasure
  drawn : List Text
  reservations : List Reservation
deriving DecidableEq

def Store.empty : Store := ⟨[], [], [], [], [], [], [], []⟩

/-! ## Constants -/

def emailCodeTtlMs : Nat := 5 * 60 * 1000

def emailTokenTtlMs : Nat := 30 * 60 * 1000

def emailResendCooldownMs : Nat := 60 * 1000

def emailMaxAttempts : Nat := 5

def emailMaxSendsPerAddressHour : Nat := 5

def emailMaxSendsPerRequesterHour : Nat := 20

def challengeTtlMs : Nat := 5 * 60 * 1000

def sessionTtlMs : Nat := 30 * 24 * 60 * 60 * 1000

/-! ## Keys -/

structure Store.Keys (s : Store) : Prop where
  verifications : Table.Keyed Verification.id s.verifications
  attempts : ∀ v ∈ s.verifications, v.attempts ≤ 5
  challenges : Table.Keyed Challenge.id s.challenges
  users : Table.Keyed User.id s.users
  addresses : (s.users.filterMap User.verifiedEmailHash).Nodup
  passkeys : Table.Keyed Passkey.credentialId s.passkeys
  sessions : Table.Keyed Session.tokenHash s.sessions
  erasures : Table.Keyed Erasure.id s.erasures
  erasureUsers : Table.Keyed (fun e : Erasure => (e.userId, e.status)) s.erasures

instance (s : Store) : Decidable s.Keys :=
  have (α κ : Type) [DecidableEq κ] (key : α → κ) (t : List α) : Decidable (Table.Keyed key t) :=
    inferInstanceAs (Decidable (t.map key).Nodup)
  decidable_of_iff (_ ∧ _ ∧ _ ∧ _ ∧ _ ∧ _ ∧ _ ∧ _ ∧ _)
    ⟨fun ⟨h₁, h₂, h₃, h₄, h₅, h₆, h₇, h₈, h₉⟩ => ⟨h₁, h₂, h₃, h₄, h₅, h₆, h₇, h₈, h₉⟩,
      fun ⟨h₁, h₂, h₃, h₄, h₅, h₆, h₇, h₈, h₉⟩ => ⟨h₁, h₂, h₃, h₄, h₅, h₆, h₇, h₈, h₉⟩⟩

/-! ## Statements -/

/-- What `requireVerifiedEmail` returns. -/
structure VerifiedEmail where
  id : Text
  emailHash : Text
  tokenHash : Text
deriving DecidableEq

/-- What a registration commits: its challenge, the account that it read under the address, the passkey and the session. -/
structure Registration where
  challengeId : Text
  verificationId : Text
  verifiedEmailHash : Text
  userId : Text
  profile : Option Profile
  consent : Consent
  isExisting : Bool
  passkey : Passkey
  session : Session
deriving DecidableEq

inductive Command
  | pruneAuthRecords (now : Nat)
  | insertVerification (emailHash requestFingerprint code : Text) (now : Nat)
  | deleteVerification (id : Text)
  | consumeOthers (emailHash id : Text) (now : Nat)
  | verify (id codeHash tokenHash : Text) (now : Nat)
  | countAttempt (id : Text) (now : Nat)
  | reserve (e : VerifiedEmail) (userId : Text) (profile : Profile) (consent : Consent) (challenge : Text) (now : Nat)
  | deleteChallenge (id : Text)
  | takeChallenge (id : Text) (kind : ChallengeKind)
  | insertChallenge (challenge : Text) (kind : ChallengeKind) (userId : Option Text) (now : Nat)
  | register (r : Registration)
  | changeAddress (e : VerifiedEmail) (userId : Text) (profile : Profile) (consent : Consent) (now : Nat)
  | changeProfile (userId : Text) (profile : Profile) (consent : Consent)
  | addPasskey (passkey : Passkey)
  | signIn (credentialId : Text) (newCounter : Nat) (session : Session)
  | deleteSession (tokenHash : Text)
  | requestErasure (userId : Text) (now eligibleAfter : Nat)
  | deferErasure (id : Text) (eligibleAfter : Nat)
  | completeErasure (id : Text)
  | erase (id userId : Text) (emailHash : Option Text)
deriving DecidableEq

/-- What an access finds outside the tables: the time, an identifier and a secret that it draws, whether a message is
refused, and, of an account that is to be erased, what its tasks say and whether blobs of it are left. -/
structure Outside where
  now : Nat
  uuid : Uuid
  secret : Text
  latestUpdate : Nat
  activeCount : Nat
  blobsRemain : Bool
  mailFails : Bool

/-- The deployment; `hmacSha256` is under its key. -/
structure Env where
  emailVerificationAvailable : Bool
  hmacSha256 : Text → Text
  sha256Hex : Text → Text
  retentionMs : Nat

def Env.codeHash (env : Env) (verificationId code : Text) : Text :=
  env.hmacSha256 ("code-v1:".toList ++ verificationId ++ ":".toList ++ code)

def Env.emailHash (env : Env) (email : Text) : Text := env.hmacSha256 ("email-v1:".toList ++ email)

/-- The code may still be tried. -/
def Verification.isOpen (v : Verification) : Bool :=
  decide (v.attempts < emailMaxAttempts) && v.verifiedAt.isNone && v.reservedAt.isNone && v.consumedAt.isNone

/-- The address was verified, and the token may be used. -/
def Verification.isVerified (e : VerifiedEmail) (now : Nat) (v : Verification) : Bool :=
  decide (v.id = e.id) && decide (v.emailHash = e.emailHash) && decide (v.verificationTokenHash = some e.tokenHash) &&
    v.verifiedAt.isSome && v.tokenExpiresAt.any (fun t => decide (now < t)) && v.reservedAt.isNone && v.consumedAt.isNone

/-- `ON DELETE SET NULL`. -/
def Store.deleteVerifications (p : Verification → Bool) (s : Store) : Store := { s with
  verifications := Table.delete p s.verifications
  challenges := Table.update
    (fun c => s.verifications.any (fun v => p v && decide (c.emailVerificationId = some v.id)))
    (fun c => { c with emailVerificationId := none }) s.challenges }

/-- A row is no longer needed: it is out of time, or its token is, or the challenge that reserved it. -/
def Store.isStale (s : Store) (now : Nat) (v : Verification) : Bool :=
  v.consumedAt.isNone && (decide (v.expiresAt ≤ now) || v.tokenExpiresAt.any (fun t => decide (t ≤ now)) ||
    s.challenges.any (fun c => decide (c.expiresAt ≤ now) && decide (v.reservationId = some c.id)))

def consume (now : Nat) (v : Verification) : Verification := { v with consumedAt := some now }

def Store.pruneAuthRecords (s : Store) (now : Nat) : Store :=
  let pruned : Store := { s with
    verifications := Table.update (s.isStale now) (consume now) s.verifications
    challenges := Table.delete (fun c => decide (c.expiresAt ≤ now)) s.challenges
    sessions := Table.delete (fun r => decide (r.expiresAt ≤ now)) s.sessions }
  pruned.deleteVerifications (fun v => decide (v.createdAt + 7 * 24 * 60 * 60 * 1000 ≤ now))

/-- No code was sent to the address lately, nor too many to it or for the requester. -/
def Store.maySend (s : Store) (emailHash requestFingerprint : Text) (now : Nat) : Bool :=
  s.verifications.all (fun v => !(decide (v.emailHash = emailHash) && decide (now < v.createdAt + emailResendCooldownMs))) &&
    decide (s.verifications.countP (fun v => decide (v.emailHash = emailHash) && decide (now ≤ v.createdAt + 3600000)) <
      emailMaxSendsPerAddressHour) &&
    decide (s.verifications.countP (fun v => decide (v.requestFingerprint = requestFingerprint) &&
      decide (now ≤ v.createdAt + 3600000)) < emailMaxSendsPerRequesterHour)

/-- A new row for a code. -/
def verificationRow (env : Env) (id emailHash requestFingerprint code : Text) (now : Nat) : Verification where
  id := id
  emailHash := emailHash
  requestFingerprint := requestFingerprint
  codeHash := env.codeHash id code
  attempts := 0
  expiresAt := now + emailCodeTtlMs
  resendAfter := now + emailResendCooldownMs
  verifiedAt := none
  verificationTokenHash := none
  tokenExpiresAt := none
  reservedAt := none
  reservationId := none
  consumedAt := none
  createdAt := now

/-- The code is compared: everything but the code lets the row be verified. -/
def Verification.isCompared (id : Text) (now : Nat) (v : Verification) : Bool :=
  decide (v.id = id) && v.isOpen && decide (now < v.expiresAt)

def verified (tokenHash : Text) (now : Nat) (v : Verification) : Verification :=
  { v with verifiedAt := some now, verificationTokenHash := some tokenHash, tokenExpiresAt := some (now + emailTokenTtlMs) }

/-- A failed attempt, the last of which consumes the row. -/
def tried (now : Nat) (v : Verification) : Verification :=
  { v with
    attempts := v.attempts + 1
    consumedAt := if emailMaxAttempts ≤ v.attempts + 1 then some now else v.consumedAt }

def reserved (challengeId : Text) (now : Nat) (v : Verification) : Verification :=
  { v with reservedAt := some now, reservationId := some challengeId }

/-- The verification is the one that the challenge of the registration reserved. -/
def Registration.isReserved (r : Registration) (v : Verification) : Bool :=
  decide (v.id = r.verificationId) && decide (v.reservationId = some r.challengeId) && v.consumedAt.isNone

/-- The account that the registration updates. -/
def Registration.isAccount (r : Registration) (u : User) : Bool :=
  decide (u.id = r.userId) && decide (u.verifiedEmailHash = some r.verifiedEmailHash)

/-- The account of a registration. -/
def Registration.user (r : Registration) : User := ⟨r.userId, r.profile, r.consent, some r.verifiedEmailHash⟩

/-- The row exists that a foreign key names. -/
def Store.hasUser (s : Store) (id : Text) : Bool := s.users.any (fun u => decide (u.id = id))

/-- The tables with the account, the passkey and the session of a registration. -/
def Store.registered (s : Store) (r : Registration) : Store :=
  { s with
    users :=
      if r.isExisting then Table.update r.isAccount (fun u => { u with profile := r.profile, consent := r.consent }) s.users
      else s.users ++ [r.user]
    passkeys := s.passkeys ++ [r.passkey]
    sessions := s.sessions ++ [r.session] }

def Store.register (s : Store) (r : Registration) : Option Store :=
  if (s.registered r).hasUser r.passkey.userId && (s.registered r).hasUser r.session.userId then
    some ((s.registered r).deleteVerifications r.isReserved)
  else none

def Store.changeAddress (s : Store) (e : VerifiedEmail) (userId : Text) (profile : Profile) (consent : Consent)
    (now : Nat) : Store :=
  let changed : Store := { s with
    users := Table.update (fun u => decide (u.id = userId) && s.verifications.any (Verification.isVerified e now))
      (fun u => { u with profile := some profile, consent := consent, verifiedEmailHash := some e.emailHash }) s.users }
  changed.deleteVerifications (fun v => decide (v.id = e.id) && decide (v.verificationTokenHash = some e.tokenHash) &&
    v.consumedAt.isNone)

/-- `identityStorage: false` and so on. -/
def erasedConsent : Consent := ⟨false, false, false⟩

def Store.erase (s : Store) (id userId : Text) (emailHash : Option Text) : Store :=
  let erased : Store := { s with
    users := Table.update (fun u => decide (u.id = userId))
      (fun u => { u with profile := none, consent := erasedConsent, verifiedEmailHash := none }) s.users
    passkeys := Table.delete (fun p => decide (p.userId = userId)) s.passkeys
    sessions := Table.delete (fun r => decide (r.userId = userId)) s.sessions
    challenges := Table.delete (fun c => decide (c.userId = some userId)) s.challenges
    erasures := Table.update (fun e => decide (e.id = id) && decide (e.status = .pending))
      (fun e => { e with status := .completed }) s.erasures }
  erased.deleteVerifications (fun v => decide (some v.emailHash = emailHash))

/-- The tables after a command.  An identifier that was drawn before is drawn by no insertion. -/
def Command.apply (env : Env) (x : Outside) (s : Store) : Command → Option Store
  | .pruneAuthRecords now => some (s.pruneAuthRecords now)
  | .insertVerification emailHash requestFingerprint code now =>
    if x.uuid.1 ∈ s.drawn then none
    else if s.maySend emailHash requestFingerprint now then some { s with
      verifications := s.verifications ++ [verificationRow env x.uuid.1 emailHash requestFingerprint code now]
      drawn := x.uuid.1 :: s.drawn }
    else some s
  | .deleteVerification id => some (s.deleteVerifications (fun v => decide (v.id = id)))
  | .consumeOthers emailHash id now => some { s with
      verifications := Table.update
        (fun v => decide (v.emailHash = emailHash) && decide (v.id ≠ id) && v.consumedAt.isNone) (consume now)
        s.verifications }
  | .verify id codeHash tokenHash now => some { s with
      verifications := Table.update (fun v => v.isCompared id now && decide (v.codeHash = codeHash))
        (verified tokenHash now) s.verifications }
  | .countAttempt id now => some { s with
      verifications := Table.update (fun v => decide (v.id = id) && v.isOpen) (tried now) s.verifications }
  | .reserve e userId profile consent challenge now =>
    if x.uuid.1 ∈ s.drawn ∨ s.verifications.any (fun v => decide (v.id = e.id)) = false then none
    else some { s with
      verifications := Table.update (Verification.isVerified e now) (reserved x.uuid.1 now) s.verifications
      challenges := s.challenges ++ [⟨x.uuid.1, challenge, .registration, some userId, some profile, some consent,
        some e.id, some e.emailHash, now + challengeTtlMs⟩]
      drawn := x.uuid.1 :: s.drawn
      reservations := s.reservations ++
        ((s.verifications.filter (Verification.isVerified e now)).map (fun v => ⟨v.id, x.uuid.1, v.emailHash⟩)) }
  | .deleteChallenge id => some { s with challenges := Table.delete (fun c => decide (c.id = id)) s.challenges }
  | .takeChallenge id kind => some { s with
      challenges := Table.delete (fun c => decide (c.id = id) && decide (c.kind = kind)) s.challenges }
  | .insertChallenge challenge kind userId now =>
    if x.uuid.1 ∈ s.drawn then none
    else some { s with
      challenges := s.challenges ++ [⟨x.uuid.1, challenge, kind, userId, none, none, none, none, now + challengeTtlMs⟩]
      drawn := x.uuid.1 :: s.drawn }
  | .register r => s.register r
  | .changeAddress e userId profile consent now => some (s.changeAddress e userId profile consent now)
  | .changeProfile userId profile consent => some { s with
      users := Table.update (fun u => decide (u.id = userId))
        (fun u => { u with profile := some profile, consent := consent }) s.users }
  | .addPasskey passkey =>
    if s.hasUser passkey.userId then some { s with passkeys := s.passkeys ++ [passkey] } else none
  | .signIn credentialId newCounter session =>
    if s.hasUser session.userId then some { s with
      passkeys := Table.update (fun p => decide (p.credentialId = credentialId))
        (fun p => { p with counter := newCounter }) s.passkeys
      sessions := s.sessions ++ [session] }
    else none
  | .deleteSession tokenHash => some { s with sessions := Table.delete (fun r => decide (r.tokenHash = tokenHash)) s.sessions }
  | .requestErasure userId now eligibleAfter => some { s with
      erasures := s.erasures ++ [⟨x.uuid.1, userId, .pending, now, eligibleAfter⟩] }
  | .deferErasure id eligibleAfter => some { s with
      erasures := Table.update (fun e => decide (e.id = id) && decide (e.status = .pending))
        (fun e => { e with eligibleAfter := eligibleAfter }) s.erasures }
  | .completeErasure id => some { s with
      erasures := Table.update (fun e => decide (e.id = id) && decide (e.status = .pending))
        (fun e => { e with status := .completed }) s.erasures }
  | .erase id userId emailHash => some (s.erase id userId emailHash)

/-- The tables as the database leaves them, nothing where it rolls back. -/
def Command.commit (env : Env) (x : Outside) (c : Command) (s : Store) : Option Store :=
  (c.apply env x s).filter (fun s' => decide s'.Keys)

def Command.exec (env : Env) (x : Outside) (c : Command) (s : Store) : Store := (c.commit env x s).getD s

theorem Command.commit_some {env : Env} {x : Outside} {c : Command} {s s' : Store} (h : c.commit env x s = some s') :
    c.apply env x s = some s' ∧ s'.Keys := by
  rw [commit, Option.filter_eq_some_iff] at h
  exact ⟨h.1, of_decide_eq_true h.2⟩

/-- **A command rolls back or leaves tables that respect their keys.** -/
theorem Command.exec_cases (env : Env) (x : Outside) (c : Command) (s : Store) :
    (c.commit env x s = none ∧ c.exec env x s = s) ∨
      ∃ s', c.commit env x s = some s' ∧ c.apply env x s = some s' ∧ s'.Keys ∧ c.exec env x s = s' := by
  cases hcommit : c.commit env x s with
  | none => exact .inl ⟨rfl, by rw [exec, hcommit]; rfl⟩
  | some s' =>
    obtain ⟨happly, hkeys⟩ := commit_some hcommit
    exact .inr ⟨s', rfl, happly, hkeys, by rw [exec, hcommit]; rfl⟩

end Accounts
end Adg
