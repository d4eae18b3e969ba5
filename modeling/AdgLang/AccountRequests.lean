import AdgLang.Accounts
import AdgLang.PortalCalls
/-!
# AccountRequests — the requests about accounts

The functions of `index.js` that verify addresses, register passkeys, sign in and out, change the data of an account and
erase identities, as programs over the tables of the accounts: each stops wherever the source awaits the database.  What
the browser's response is worth is the answer of the library that checks it, given with the request.
-/
namespace Adg
namespace Accounts

open Portal (isUuid Uuid oldest)

/-! ## Errors -/

inductive AccountError
  | publicError (message : Text) (status : Nat)
  | database
deriving DecidableEq

abbrev Call := Program Outside Command Store AccountError

def publicError (message : String) (status : Nat) : AccountError := .publicError message.toList status

def ofExcept {α : Type} : Except AccountError α → Call α
  | .ok a => pure a
  | .error e => throw e

/-- A statement of which only the failure is read. -/
def run (env : Env) (c : Command) : Call Unit := do
  let committed ← Program.perform c (fun x s => (c.commit env x s).isSome)
  Program.throwIf (!committed) .database

def requiredId (value : Text) (label : String) : Call Text := do
  Program.throwIf (!isUuid value) (.publicError (label.toList ++ " غير صالح.".toList) 400)
  return value

/-- What the library that checks responses makes of the challenge. -/
structure Credential where
  id : Text
  publicKey : Text
  counter : Nat

abbrev Response := Text → Option Credential

/-! ## Sessions -/

/-- The row that `requireSession` returns. -/
structure Account where
  userId : Text
  profile : Option Profile
  verifiedEmailHash : Option Text
  isErasurePending : Bool
  expiresAt : Nat

def Store.user (s : Store) (id : Text) : Option User := Table.lookup User.id id s.users

def Store.account (s : Store) (tokenHash : Text) : Option Account :=
  (Table.lookup Session.tokenHash tokenHash s.sessions).bind (fun row => (s.user row.userId).map (fun u =>
    { userId := row.userId, profile := u.profile, verifiedEmailHash := u.verifiedEmailHash,
      isErasurePending := s.erasures.any (fun e => decide (e.userId = u.id) && decide (e.status = .pending)),
      expiresAt := row.expiresAt }))

def signedOut : AccountError := publicError "سجّل الدخول أولًا لمتابعة المسودة." 401

def sessionOver : AccountError := publicError "انتهت جلسة الحساب. سجّل الدخول مجددًا." 401

def requireSession (env : Env) (token : Option Text) : Call Account :=
  match token.filter (fun t => decide (t ≠ [])) with
  | none => throw signedOut
  | some token => do
    let row ← Program.read (fun s => s.account (env.sha256Hex token))
    let x ← Program.input
    match row with
    | none => throw sessionOver
    | some account =>
      if account.expiresAt ≤ x.now then do
        run env (.deleteSession (env.sha256Hex token))
        throw sessionOver
      else pure account

/-- `createSessionRecord`. -/
def createSessionRecord (env : Env) (userId : Text) (x : Outside) : Session :=
  ⟨env.sha256Hex x.secret, userId, x.now + sessionTtlMs⟩

def logout (env : Env) (token : Option Text) : Call Unit :=
  match token.filter (fun t => decide (t ≠ [])) with
  | none => pure ()
  | some token => run env (.deleteSession (env.sha256Hex token))

/-! ## E-mail verifications -/

def requireEmailVerificationConfiguration (env : Env) : Call Unit :=
  Program.throwIf (!env.emailVerificationAvailable) (publicError "خدمة توثيق البريد غير مهيأة حاليًا." 503)

/-- What `String.prototype.trim` takes away. -/
def isSpace (c : Char) : Bool := (isWhiteSpace c && decide (c.toNat ≠ 0x85)) || decide (c.toNat = 0xFEFF)

def normalizeVerificationCode (value : Text) : Except AccountError Text :=
  let code := ((value.dropWhile isSpace).reverse.dropWhile isSpace).reverse
  if code.length = 6 ∧ code.all Char.isDigit then .ok code
  else .error (publicError "رمز التحقق يجب أن يتكون من ستة أرقام." 400)

def sendLimit : AccountError := publicError "طلب رمز آخر جارٍ أو بلغ حد الإرسال المؤقت. حاول لاحقًا." 429

/-- What the insertion of a code reports: the identifier it drew and its change count. -/
def insertReport (env : Env) (c : Command) (x : Outside) (s : Store) : Option (Text × Nat) :=
  (c.commit env x s).map (fun s' => (x.uuid.1, s'.verifications.length - s.verifications.length))

def sendEmailVerificationCode (env : Env) (email : Except AccountError Text) (requester : Text) : Call Unit := do
  let email ← ofExcept email
  requireEmailVerificationConfiguration env
  let emailHash := env.emailHash email
  let requestFingerprint := env.hmacSha256 ("request-v1:".toList ++ requester.take 200)
  let x ← Program.input
  let now := x.now
  run env (.pruneAuthRecords now)
  let recent ← Program.read (fun s => s.verifications.filter (fun v => decide (now ≤ v.createdAt + 60 * 60 * 1000)))
  let ofAddress := recent.filter (fun v => decide (v.emailHash = emailHash))
  Program.throwIf (decide (emailMaxSendsPerAddressHour ≤ ofAddress.length) || decide (emailMaxSendsPerRequesterHour ≤
      recent.countP (fun v => decide (v.requestFingerprint = requestFingerprint))))
    (publicError "بلغت محاولات الإرسال الحد المؤقت. أعد المحاولة بعد ساعة." 429)
  let lastCreated := (ofAddress.map Verification.createdAt).foldl max 0
  Program.throwIf (decide (lastCreated ≠ 0) && decide (now < lastCreated + emailResendCooldownMs))
    (.publicError ("انتظر ".toList ++ (toString ((lastCreated + emailResendCooldownMs - now + 999) / 1000)).toList ++
      " ثانية قبل طلب رمز جديد.".toList) 429)
  let drawn ← Program.input
  let insertion := Command.insertVerification emailHash requestFingerprint drawn.secret now
  match ← Program.perform insertion (insertReport env insertion) with
  | none => throw sendLimit
  | some (verificationId, changes) =>
    Program.throwIf (decide (changes ≠ 1)) sendLimit
    let mail ← Program.input
    if mail.mailFails then
      run env (.deleteVerification verificationId)
      throw (publicError "تعذر إرسال رمز التحقق الآن. حاول مرة أخرى بعد قليل." 503)
    else run env (.consumeOthers emailHash verificationId now)

/-- What an update of the verifications reports. -/
def verificationChanges (p : Verification → Bool) (_ : Outside) (s : Store) : Nat := Table.changes p s.verifications

def verifyEmailVerificationCode (env : Env) (verificationId code : Text) : Call Unit := do
  requireEmailVerificationConfiguration env
  let verificationId ← requiredId verificationId "معرف توثيق البريد"
  let code ← ofExcept (normalizeVerificationCode code)
  let row ← Program.read (fun s => Table.lookup Verification.id verificationId s.verifications)
  let x ← Program.input
  Program.throwIf (!row.any (fun v => v.isOpen && decide (x.now < v.expiresAt)))
    (publicError "انتهى رمز التحقق أو استُخدم. اطلب رمزًا جديدًا." 400)
  let codeHash := env.codeHash verificationId code
  let drawn ← Program.input
  let changes ← Program.perform (.verify verificationId codeHash (env.sha256Hex drawn.secret) x.now)
    (verificationChanges (fun v => v.isCompared verificationId x.now && decide (v.codeHash = codeHash)))
  if changes ≠ 1 then
    run env (.countAttempt verificationId x.now)
    throw (publicError "رمز التحقق غير صحيح. تحقق من الرسالة وحاول مرة أخرى." 400)
  else pure ()

/-- The row of a token that may be used. -/
def Verification.hasToken (emailHash tokenHash : Text) (now : Nat) (v : Verification) : Bool :=
  v.isVerified ⟨v.id, emailHash, tokenHash⟩ now

def requireVerifiedEmail (env : Env) (email : Text) (token : Option Text) : Call VerifiedEmail :=
  match token with
  | none => throw (publicError "وثّق البريد الإلكتروني بالرمز قبل المتابعة." 403)
  | some token => do
    Program.throwIf (decide (token.length < 32) || decide (200 < token.length))
      (publicError "وثّق البريد الإلكتروني بالرمز قبل المتابعة." 403)
    requireEmailVerificationConfiguration env
    let emailHash := env.emailHash email
    let tokenHash := env.sha256Hex token
    let x ← Program.input
    match ← Program.read (fun s => s.verifications.find? (Verification.hasToken emailHash tokenHash x.now)) with
    | none => throw (publicError "انتهى توثيق البريد أو لا يطابق العنوان المدخل." 403)
    | some row => return ⟨row.id, emailHash, tokenHash⟩

/-! ## Registration -/

/-- What `validateAccountProfile` and `validateAccountConsent` make of a body, and the token in it. -/
structure AccountBody where
  profile : Except AccountError Profile
  consent : Except AccountError Consent
  emailVerificationToken : Option Text

def Store.userWithAddress (s : Store) (emailHash : Text) : Option User :=
  s.users.find? (fun u => decide (u.verifiedEmailHash = some emailHash))

/-- The identifier of the challenge and the change count of the reservation. -/
def reserveReport (env : Env) (e : VerifiedEmail) (c : Command) (now : Nat) (x : Outside) (s : Store) :
    Option (Text × Nat) :=
  (c.commit env x s).map (fun _ => (x.uuid.1, Table.changes (Verification.isVerified e now) s.verifications))

def beginRegistration (env : Env) (body : AccountBody) : Call Unit := do
  let profile ← ofExcept body.profile
  let consent ← ofExcept body.consent
  let emailVerification ← requireVerifiedEmail env profile.email body.emailVerificationToken
  let existingAccount ← Program.read (fun s => s.userWithAddress emailVerification.emailHash)
  let drawn ← Program.input
  let userId := existingAccount.elim drawn.uuid.1 User.id
  let x ← Program.input
  run env (.pruneAuthRecords x.now)
  let reservation := Command.reserve emailVerification userId profile consent x.secret x.now
  match ← Program.perform reservation (reserveReport env emailVerification reservation x.now) with
  | none => throw .database
  | some (challengeId, changes) =>
    if changes ≠ 1 then
      run env (.deleteChallenge challengeId)
      throw (publicError "انتهى توثيق البريد أو استُخدم. أرسل رمزًا جديدًا." 409)
    else pure ()

def challengeOver : AccountError := publicError "انتهت محاولة التحقق أو استُخدمت." 400

def isChallenge (id : Text) (kind : ChallengeKind) (c : Challenge) : Bool := decide (c.id = id) && decide (c.kind = kind)

def takeChallenge (id : Text) (kind : ChallengeKind) : Call Challenge := do
  match ← Program.read (fun s => s.challenges.find? (isChallenge id kind)) with
  | none => throw challengeOver
  | some row =>
    let changes ← Program.perform (.takeChallenge id kind) (fun _ s => Table.changes (isChallenge id kind) s.challenges)
    Program.throwIf (decide (changes ≠ 1)) challengeOver
    let x ← Program.input
    Program.throwIf (decide (row.expiresAt ≤ x.now)) challengeOver
    return row

/-- The row that the challenge reserved, verified and not consumed. -/
def Verification.isReservedBy (c : Challenge) (v : Verification) : Bool :=
  decide (c.emailVerificationId = some v.id) && decide (c.verifiedEmailHash = some v.emailHash) &&
    decide (v.reservationId = some c.id) && v.verifiedAt.isSome && v.consumedAt.isNone

def invalidResponse : AccountError := publicError "استجابة مفتاح المرور غير صالحة." 400

def verifyRegistrationCredential (response : Response) (challenge : Challenge) : Call Credential :=
  match response challenge.challenge with
  | none => throw (publicError "تعذر التحقق من مفتاح المرور. أعد بدء التسجيل." 400)
  | some credential => pure credential

/-- `passkeyInsertStatement`. -/
def passkeyRow (credential : Credential) (userId : Text) : Passkey :=
  ⟨credential.id, userId, credential.publicKey, credential.counter⟩

/-- A column that a row of this kind fills, as its NOT NULL demands where it is inserted. -/
def filled {α : Type} : Option α → Call α
  | some a => pure a
  | none => throw .database

def finishRegistration (env : Env) (challengeId : Text) (response : Option Response) : Call Unit := do
  let challengeId ← requiredId challengeId "معرف التسجيل"
  match response with
  | none => throw invalidResponse
  | some response =>
    let challenge ← takeChallenge challengeId .registration
    match ← Program.read (fun s => s.verifications.find? (Verification.isReservedBy challenge)) with
    | none => throw (publicError "انتهى توثيق البريد. أرسل رمزًا جديدًا ثم أعد التسجيل." 400)
    | some emailReservation =>
      let credential ← verifyRegistrationCredential response challenge
      let userId ← filled challenge.userId
      let consent ← filled challenge.consent
      let verifiedEmailHash ← filled challenge.verifiedEmailHash
      let x ← Program.input
      let existingAccount ← Program.read (fun s => s.userWithAddress verifiedEmailHash)
      Program.throwIf (existingAccount.any (fun u => decide (u.id ≠ userId)))
        (publicError "تغيّرت حالة حساب البريد أثناء التسجيل. أعد طلب رمز البريد." 409)
      let registration : Registration := {
        challengeId := challenge.id, verificationId := emailReservation.id, verifiedEmailHash := verifiedEmailHash,
        userId := userId, profile := challenge.profile, consent := consent, isExisting := existingAccount.isSome,
        passkey := passkeyRow credential userId, session := createSessionRecord env userId x }
      let committed ← Program.perform (.register registration) (fun x s =>
        ((Command.register registration).commit env x s).isSome)
      Program.throwIf (!committed) (publicError "مفتاح المرور مرتبط بحساب قائم، أو تغيّرت ملكية البريد." 409)

/-! ## Passkeys -/

def beginAdditionalPasskeyRegistration (env : Env) (token : Option Text) : Call Unit := do
  let account ← requireSession env token
  let x ← Program.input
  run env (.pruneAuthRecords x.now)
  run env (.insertChallenge x.secret .registration (some account.userId) x.now)

def finishAdditionalPasskeyRegistration (env : Env) (token : Option Text) (challengeId : Text)
    (response : Option Response) : Call Unit := do
  let account ← requireSession env token
  let challengeId ← requiredId challengeId "معرف التسجيل"
  match response with
  | none => throw invalidResponse
  | some response =>
    let challenge ← takeChallenge challengeId .registration
    Program.throwIf (decide (challenge.userId ≠ some account.userId) || challenge.emailVerificationId.isSome ||
      challenge.verifiedEmailHash.isSome) (publicError "محاولة إضافة مفتاح المرور غير مرتبطة بالحساب." 403)
    let credential ← verifyRegistrationCredential response challenge
    let added := Command.addPasskey (passkeyRow credential account.userId)
    let committed ← Program.perform added (fun x s => (added.commit env x s).isSome)
    Program.throwIf (!committed) (publicError "مفتاح المرور مسجل سابقًا." 409)

def beginAuthentication (env : Env) : Call Unit := do
  let x ← Program.input
  run env (.pruneAuthRecords x.now)
  run env (.insertChallenge x.secret .authentication none x.now)

/-- A response to sign in with: the passkey and the account that it names, and what the library makes of the challenge
and the passkey, its new counter. -/
structure SignInResponse where
  id : Text
  userHandle : Option Text
  verify : Text → Passkey → Option Nat

def finishAuthentication (env : Env) (challengeId : Text) (response : Option SignInResponse) : Call Unit := do
  let challengeId ← requiredId challengeId "معرف الدخول"
  match response with
  | none => throw invalidResponse
  | some response =>
    match ← Program.read (fun s => Table.lookup Passkey.credentialId response.id s.passkeys) with
    | none => throw (publicError "لم يتم التعرف على مفتاح المرور." 401)
    | some passkey =>
      let challenge ← takeChallenge challengeId .authentication
      Program.throwIf (response.userHandle.any (fun handle => decide (handle ≠ passkey.userId)))
        (publicError "لا يطابق مفتاح المرور هذا الحساب." 401)
      match response.verify challenge.challenge passkey with
      | none => throw (publicError "تعذر التحقق من مفتاح المرور. أعد محاولة الدخول." 401)
      | some newCounter =>
        let x ← Program.input
        run env (.signIn passkey.credentialId newCounter (createSessionRecord env passkey.userId x))

/-! ## Accounts -/

/-- The change counts of the batch. -/
def changeAddressReport (env : Env) (e : VerifiedEmail) (userId : Text) (c : Command) (now : Nat) (x : Outside)
    (s : Store) : Option (Nat × Nat) :=
  (c.commit env x s).map (fun _ =>
    (Table.changes (fun u : User => decide (u.id = userId) && s.verifications.any (Verification.isVerified e now)) s.users,
      Table.changes (fun v : Verification => decide (v.id = e.id) &&
        decide (v.verificationTokenHash = some e.tokenHash) && v.consumedAt.isNone) s.verifications))

def updateAccountPreferences (env : Env) (token : Option Text) (body : AccountBody) : Call Unit := do
  let account ← requireSession env token
  Program.throwIf account.isErasurePending (publicError "لا يمكن تغيير بيانات الهوية بعد تسجيل طلب محوها." 409)
  let profile ← ofExcept body.profile
  let consent ← ofExcept body.consent
  let requiresEmailVerification :=
    account.verifiedEmailHash.isNone || decide (account.profile.map Profile.email ≠ some profile.email)
  let x ← Program.input
  if requiresEmailVerification then
    let verification ← requireVerifiedEmail env profile.email body.emailVerificationToken
    let change := Command.changeAddress verification account.userId profile consent x.now
    match ← Program.perform change (changeAddressReport env verification account.userId change x.now) with
    | none => throw (publicError "هذا البريد مرتبط بحساب آخر أو تعذر حفظ التغيير." 409)
    | some changes =>
      Program.throwIf (decide (changes.1 ≠ 1) || decide (changes.2 ≠ 1))
        (publicError "انتهى توثيق البريد أو استُخدم. أرسل رمزًا جديدًا." 409)
  else run env (.changeProfile account.userId profile consent)

def requestIdentityErasure (env : Env) (token : Option Text) (confirm : Bool) : Call Unit := do
  let account ← requireSession env token
  Program.throwIf (!confirm) (publicError "يلزم تأكيد طلب محو ارتباط الهوية صراحة." 400)
  let existing ← Program.read (fun s => s.erasures.any (fun e => decide (e.userId = account.userId) &&
    decide (e.status = .pending)))
  if existing then pure ()
  else
    let x ← Program.input
    run env (.requestErasure account.userId x.now (x.now + env.retentionMs))

/-- One request to erase an identity, whose tasks have to be over for a while. -/
def eraseIdentity (env : Env) (now : Nat) (request : Erasure) : Call Unit := do
  let tasks ← Program.input
  if 0 < tasks.activeCount ∨ now < tasks.latestUpdate + env.retentionMs then
    run env (.deferErasure request.id (max (now + 24 * 60 * 60 * 1000) (tasks.latestUpdate + env.retentionMs)))
  else
    let blobs ← Program.input
    if blobs.blobsRemain then pure ()
    else match ← Program.read (fun s => s.user request.userId) with
      | none => run env (.completeErasure request.id)
      | some user => run env (.erase request.id request.userId user.verifiedEmailHash)

def processIdentityErasureRequests (env : Env) : Call Unit := do
  let x ← Program.input
  let requests ← Program.read (fun s => oldest Erasure.requestedAt 10 (s.erasures.filter (fun e =>
    decide (e.status = .pending) && decide (e.eligibleAfter ≤ x.now))))
  Program.each requests (fun request => (eraseIdentity env x.now request).handle (fun _ => pure ()))

/-! ## Requests -/

inductive Request
  | sendCode (email : Except AccountError Text) (requester : Text)
  | verifyCode (verificationId code : Text)
  | beginRegistration (body : AccountBody)
  | finishRegistration (challengeId : Text) (response : Option Response)
  | beginAdditionalPasskey (token : Option Text)
  | finishAdditionalPasskey (token : Option Text) (challengeId : Text) (response : Option Response)
  | beginAuthentication
  | finishAuthentication (challengeId : Text) (response : Option SignInResponse)
  | updatePreferences (token : Option Text) (body : AccountBody)
  | logout (token : Option Text)
  | requestErasure (token : Option Text) (confirm : Bool)
  | processErasures

def handle (env : Env) : Request → Call Unit
  | .sendCode email requester => sendEmailVerificationCode env email requester
  | .verifyCode verificationId code => verifyEmailVerificationCode env verificationId code
  | .beginRegistration body => Accounts.beginRegistration env body
  | .finishRegistration challengeId response => Accounts.finishRegistration env challengeId response
  | .beginAdditionalPasskey token => beginAdditionalPasskeyRegistration env token
  | .finishAdditionalPasskey token challengeId response => finishAdditionalPasskeyRegistration env token challengeId response
  | .beginAuthentication => Accounts.beginAuthentication env
  | .finishAuthentication challengeId response => Accounts.finishAuthentication env challengeId response
  | .updatePreferences token body => updateAccountPreferences env token body
  | .logout token => Accounts.logout env token
  | .requestErasure token confirm => requestIdentityErasure env token confirm
  | .processErasures => processIdentityErasureRequests env

end Accounts
end Adg
